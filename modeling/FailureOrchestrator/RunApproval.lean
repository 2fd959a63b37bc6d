import FailureOrchestrator.RunGate

namespace FailureOrchestrator

open Exec RunPersistence

def approvedText : Str := RunStatus.approved.value

/-- No store call raises while the store holds an approved run. -/
def Undisturbed (env : Env) (trace : List StoreStep) : Prop :=
  ∀ calls call, calls ++ [call] <+: trace → call.done = false →
    (env.store.replay calls).workflowStatus ≠ some approvedText

/-- The workflow status that a call stores. -/
def StoreOp.savedStatus : StoreOp → Option Str
  | .createRun run | .saveRun run => some run.workflowStatus
  | .append _ | .write _ _ => none

variable {env : Env} {j : Journal} {op : StoreOp} {done : Bool}

theorem undisturbed_call (h : Undisturbed env j.trace)
    (hdone : done = false → (j.store env).workflowStatus ≠ some approvedText) :
    Undisturbed env (j.call op done).trace := by
  intro calls call hprefix hfailed
  rcases List.prefix_concat_iff.mp hprefix with heq | hprefix
  · obtain ⟨rfl, hcall⟩ := List.append_inj' heq rfl
    cases hcall
    exact hdone hfailed
  · exact h calls call hprefix hfailed

theorem undisturbed_done (h : Undisturbed env j.trace) : Undisturbed env (j.call op true).trace :=
  undisturbed_call h nofun

/-- The store holds no approval, nor does the run state in memory. -/
structure Unapproved (env : Env) (j : Journal) : Prop where
  stored : (j.store env).workflowStatus ≠ some approvedText
  held : ∀ d, j.durable = some d → d.workflowStatus ≠ approvedText
  undisturbed : Undisturbed env j.trace

/-- The store and the run state in memory hold the approval. -/
structure Approved (env : Env) (j : Journal) : Prop where
  stored : (j.store env).workflowStatus = some approvedText
  held : ∃ d, j.durable = some d
  undisturbed : Undisturbed env j.trace

theorem Unapproved.call (h : Unapproved env j) (hop : op.savedStatus ≠ some approvedText) :
    Unapproved env (j.call op done) where
  stored := by
    have hs := h.stored
    rw [Journal.store_call]
    cases done with
    | false => exact hs
    | true =>
      cases op with
      | createRun run => exact hop
      | saveRun run => exact hop
      | append event => exact hs
      | write ref document => exact hs
  held := h.held
  undisturbed := undisturbed_call h.undisturbed fun _ => h.stored

theorem Unapproved.hold (h : Unapproved env j) {d : DurableRunState} (hd : d.workflowStatus ≠ approvedText) :
    Unapproved env (j.hold d) where
  stored := h.stored
  held _ heq := Option.some.inj heq ▸ hd
  undisturbed := h.undisturbed

theorem Unapproved.append (h : Unapproved env j) {event : AuditEvent} : Unapproved env (j.call (.append event) done) :=
  h.call nofun

theorem Unapproved.save (h : Unapproved env j) {d : DurableRunState} (hd : d.workflowStatus ≠ approvedText) :
    Unapproved env ((j.hold d).call (.saveRun d) done) :=
  (h.hold hd).call fun heq => hd (Option.some.inj heq)

/-- The store holds no approval exactly as long as no call was disturbed. -/
def Guarded (env : Env) (j : Journal) : Prop :=
  (j.store env).workflowStatus ≠ some approvedText ↔ Undisturbed env j.trace

theorem Unapproved.guarded (h : Unapproved env j) : Guarded env j :=
  ⟨fun _ => h.undisturbed, fun _ => h.stored⟩

theorem guarded_of_failed (h : Undisturbed env j.trace) : Guarded env (j.call op false) := by
  unfold Guarded
  rw [Journal.store_call, RunStore.step_failed]
  constructor
  · exact fun hs => undisturbed_call h fun _ => hs
  · exact fun hu => hu j.trace ⟨op, false⟩ (List.prefix_refl _) rfl

theorem unapproved_emit {t : AuditEventType} {before after : Option Str} {refs : List DurableEvidenceRef}
    (hafter : after ≠ some approvedText) :
    Triple (Unapproved env) (emit env t before after refs) (fun _ => Unapproved env) (fun _ => Unapproved env) := by
  have hadvance : ∀ {j d}, Unapproved env j → j.durable = some d → (advance d after).workflowStatus ≠ approvedText := by
    intro j d hj hd
    cases after with
    | none => exact hj.held d hd
    | some status => exact fun h => hafter (congrArg some h)
  apply emit_triple
  · exact fun j hj _ _ => hj
  · exact fun j d event message hj _ => hj.append
  · exact fun j d id message hj hd _ => hj.append.save (hadvance hj hd)
  · exact fun j d id hj hd _ => hj.append.save (hadvance hj hd)

theorem unapproved_checkpoint {c : Checkpoint} (hc : c.workflowStatus ≠ some approvedText) :
    Triple (Unapproved env) (checkpoint env c) (fun _ => Unapproved env) (fun _ => Unapproved env) := by
  have happly : ∀ {j d}, Unapproved env j → j.durable = some d → (c.apply d).workflowStatus ≠ approvedText := by
    intro j d hj hd
    show c.workflowStatus.getD d.workflowStatus ≠ approvedText
    cases hs : c.workflowStatus with
    | none => exact hj.held d hd
    | some status => exact fun h => hc (hs.trans (congrArg some h))
  apply checkpoint_triple
  · exact fun j hj _ _ => hj
  · exact fun j d message hj hd => hj.save (happly hj hd)
  · exact fun j d hj hd => hj.save (happly hj hd)

theorem unapproved_write {ref : Str} {document : Document} :
    Triple (Unapproved env) (perform env (.write ref document)) (fun _ => Unapproved env) (fun _ => Unapproved env) := by
  apply perform_triple
  · exact fun j hj _ => hj.call nofun
  · exact fun j message hj => hj.call nofun

/-- A journal whose next call may store an approval. -/
structure Steady (env : Env) (j : Journal) : Prop where
  undisturbed : Undisturbed env j.trace
  missing : j.durable = none → (j.store env).workflowStatus ≠ some approvedText

theorem Unapproved.steady (h : Unapproved env j) : Steady env j := ⟨h.undisturbed, fun _ => h.stored⟩

theorem Approved.steady (h : Approved env j) : Steady env j where
  undisturbed := h.undisturbed
  missing hnone := by
    obtain ⟨d, hd⟩ := h.held
    rw [hnone] at hd
    cases hd

/-- How a call that stores an approval raises. -/
def Refused (env : Env) (e : RunError) (j : Journal) : Prop := e.isPersistence = true ∧ Guarded env j

theorem Steady.refused_missing (h : Steady env j) (hnone : j.durable = none) {message : Str} :
    Refused env (.persistence message) j :=
  ⟨rfl, fun _ => h.undisturbed, fun _ => h.missing hnone⟩

theorem refused_of_failed (h : Undisturbed env j.trace) {message : Str} :
    Refused env (.persistence message) (j.call op false) := ⟨rfl, guarded_of_failed h⟩

theorem approved_of_saved {d : DurableRunState} (h : Undisturbed env j.trace) (hd : d.workflowStatus = approvedText) :
    Approved env ((j.hold d).call (.saveRun d) true) where
  stored := by
    rw [Journal.store_call]
    exact congrArg some hd
  held := ⟨d, rfl⟩
  undisturbed := undisturbed_done h

theorem approved_emit {t : AuditEventType} {before : Option Str} {refs : List DurableEvidenceRef} :
    Triple (Steady env) (emit env t before (some approvedText) refs) (fun _ => Approved env) (Refused env) := by
  apply emit_triple
  · exact fun j hj hnone message => hj.refused_missing hnone
  · exact fun j d event message hj _ => refused_of_failed hj.undisturbed
  · exact fun j d id message hj _ _ => refused_of_failed (undisturbed_done hj.undisturbed)
  · exact fun j d id hj _ _ => approved_of_saved (undisturbed_done hj.undisturbed) rfl

theorem approved_checkpoint {c : Checkpoint} (hc : c.workflowStatus = some approvedText) :
    Triple (Steady env) (checkpoint env c) (fun _ => Approved env) (Refused env) := by
  apply checkpoint_triple
  · exact fun j hj hnone message => hj.refused_missing hnone
  · exact fun j d message hj _ => refused_of_failed hj.undisturbed
  · intro j d hj _
    apply approved_of_saved hj.undisturbed
    show c.workflowStatus.getD d.workflowStatus = approvedText
    rw [hc]
    rfl

/-- A new run is refused where one is stored, and otherwise starts without an approval. -/
theorem startRun_unapproved {runId : Str} :
    Triple (fun j => j = {}) (startRun env runId RunStatus.received.value) (fun _ => Unapproved env)
      (fun e j => Unapproved env j ∨ Refused env e j) := by
  have hnone : Undisturbed env ({} : Journal).trace := fun calls call hprefix => absurd (List.prefix_nil.mp hprefix) (by simp)
  apply Triple.bind (Q := fun _ j => ∀ d, d.workflowStatus = RunStatus.received.value → Unapproved env (j.hold d))
  · apply perform_triple
    · rintro j rfl -
      intro d hd
      have hreceived : RunStatus.received.value ≠ approvedText := by decide
      refine Unapproved.hold ⟨?_, by simp, undisturbed_done hnone⟩ (hd ▸ hreceived)
      rw [Journal.store_call]
      exact fun heq => hreceived (Option.some.inj heq)
    · rintro j message rfl
      exact .inr (refused_of_failed hnone)
  intro _
  apply Triple.bind (Q := fun _ => Unapproved env)
  · exact Triple.update fun j hj => hj _ rfl
  intro _
  refine (unapproved_emit ?_).mono (fun _ h => h) (fun _ _ h => h) fun _ _ h => .inl h
  decide

end FailureOrchestrator
