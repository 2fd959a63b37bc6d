import FailureOrchestrator.Recovery
import FailureOrchestrator.RunRules

namespace FailureOrchestrator

open Exec RunPersistence

section

/-- The work that a run announces before it does it. -/
inductive CallKind where
  | tool
  | sandbox
  deriving DecidableEq

def CallKind.start : CallKind → AuditEventType
  | .tool => .toolCalled
  | .sandbox => .sandboxStarted

def CallKind.done : CallKind → AuditEventType
  | .tool => .toolCompleted
  | .sandbox => .sandboxCompleted

/-- The log announces a call and never its end. -/
def OpenCall (kind : CallKind) (log : List AuditEvent) : Prop :=
  ∃ before e after, log = before ++ e :: after ∧ e.eventType = kind.start.value ∧
    ∀ e' ∈ after, e'.eventType ≠ kind.done.value

def Interrupted (log : List AuditEvent) : Prop := ∃ kind, OpenCall kind log

variable {kind : CallKind} {log : List AuditEvent} {e : AuditEvent}

theorem not_openCall_nil : ¬ OpenCall kind [] := by
  rintro ⟨before, e, after, heq, -, -⟩
  simp at heq

theorem openCall_of_getLast? (hlast : log.getLast? = some e) (he : e.eventType = kind.start.value) :
    OpenCall kind log := by
  obtain ⟨before, rfl⟩ := List.getLast?_eq_some_iff.mp hlast
  exact ⟨before, e, [], rfl, he, nofun⟩

/-- A call is open at the end of a log when its last event opened it, or when it was open before and is not ended. -/
theorem openCall_concat (h : OpenCall kind (log ++ [e])) :
    e.eventType = kind.start.value ∨ (OpenCall kind log ∧ e.eventType ≠ kind.done.value) := by
  obtain ⟨before, x, after, heq, hx, hafter⟩ := h
  rcases List.eq_nil_or_concat after with rfl | ⟨init, last, rfl⟩
  · obtain ⟨-, hlast⟩ := List.append_inj' heq rfl
    cases hlast
    exact .inl hx
  · rw [List.concat_eq_append] at heq hafter
    rw [← List.cons_append, ← List.append_assoc] at heq
    obtain ⟨hlog, hlast⟩ := List.append_inj' heq rfl
    cases hlast
    refine .inr ⟨⟨before, x, init, hlog, hx, fun e' he' => hafter e' ?_⟩, hafter e ?_⟩
    · exact List.mem_append_left _ he'
    · exact List.mem_append_right _ (List.mem_singleton_self e)

theorem CallKind.value_start_ne_done (k k' : CallKind) : k.start.value ≠ k'.done.value := by
  cases k <;> cases k' <;> decide

theorem CallKind.eq_of_value_start {k k' : CallKind} (h : k.start.value = k'.start.value) : k = k' := by
  cases k <;> cases k' <;> first | rfl | exact absurd h (by decide)

theorem CallKind.value_ne_start {t : AuditEventType} (h : t.opensCall = false) (k : CallKind) :
    t.value ≠ k.start.value := by
  cases k <;> cases t <;> first | (cases h; done) | decide

/-- The last event is a tool call, and the run state records it. -/
def Announced (s : RunStore) : Prop :=
  ∃ last d, s.events.getLast? = some last ∧ last.eventType = AuditEventType.toolCalled.value ∧
    s.state = some d ∧ d.lastEventSequence = last.sequence

/-- The stored status is not one to resume from. -/
def Stopped (s : RunStore) : Prop := ∃ d, s.state = some d ∧ d.workflowStatus ∉ resumableStatuses

/-- Why no crash in this state resumes an open call, other than one just announced. -/
inductive CrashSafe (s : RunStore) : Prop where
  | closed (h : ¬ Interrupted s.events)
  | behind (d : DurableRunState) (last : AuditEvent) (hstate : s.state = some d) (hlast : s.events.getLast? = some last)
      (hzero : d.lastEventSequence ≠ 0) (hne : d.lastEventSequence ≠ last.sequence)
  | stopped (h : Stopped s)
  | announced (h : Announced s)

theorem CrashSafe.not_resumable {s : RunStore} (h : CrashSafe s) (hopen : Interrupted s.events) (hnot : ¬ Announced s)
    {runId : Str} {d : DurableRunState} (hd : s.state = some d) : (recoveryDecision s runId d).status ≠ .resumable := by
  intro hresumable
  obtain ⟨hmatch, hstatus⟩ := recoveryDecision_resumable hresumable
  cases h with
  | closed hclosed => exact hclosed hopen
  | behind d' last hstate hlast hzero hne =>
    cases hd.symm.trans hstate
    exact hne (eq_sequence_of_sequenceMismatch hmatch hlast hzero)
  | stopped hstopped =>
    obtain ⟨d', hstate, hnotin⟩ := hstopped
    cases hd.symm.trans hstate
    exact hnotin hstatus
  | announced hannounced => exact hnot hannounced

/-- Every crash so far was safe. -/
def AllSafe (env : Env) (trace : List StoreStep) : Prop :=
  ∀ calls, calls <+: trace → CrashSafe (env.store.replay calls)

variable {env : Env} {j : Journal} {op : StoreOp} {done : Bool}

theorem AllSafe.call (h : AllSafe env j.trace) (hs : CrashSafe ((j.call op done).store env)) :
    AllSafe env (j.call op done).trace := by
  intro calls hprefix
  rcases List.prefix_concat_iff.mp hprefix with rfl | hprefix
  · exact hs
  · exact h calls hprefix

theorem AllSafe.failed (h : AllSafe env j.trace) : AllSafe env (j.call op false).trace := by
  apply h.call
  rw [Journal.store_call]
  exact h j.trace (List.prefix_refl _)

/-- No call is open. -/
structure Closed (env : Env) (j : Journal) : Prop where
  safe : AllSafe env j.trace
  log : ¬ Interrupted (j.store env).events

/-- The store holds the run state that is in memory, and at least one event is counted. -/
def Synced (env : Env) (j : Journal) : Prop :=
  ∃ d, j.durable = some d ∧ (j.store env).state = some d ∧ d.lastEventSequence ≠ 0

/-- A call of one kind is open, for a reason that keeps the run from being resumed. -/
structure Working (env : Env) (kind : CallKind) (j : Journal) : Prop where
  safe : AllSafe env j.trace
  synced : Synced env j
  others : ∀ k, k ≠ kind → ¬ OpenCall k (j.store env).events
  excuse : Announced (j.store env) ∨ Stopped (j.store env)

/-- A call that raised inside an announced call. -/
def Broken (env : Env) (e : RunError) (j : Journal) : Prop := e.isPersistence = true ∧ AllSafe env j.trace

theorem closed_of_log (h : AllSafe env j.trace) (hlog : ¬ Interrupted ((j.call op done).store env).events) :
    Closed env (j.call op done) :=
  ⟨h.call (.closed hlog), hlog⟩

theorem Closed.call (h : Closed env j) (hop : ∀ event, op ≠ .append event) : Closed env (j.call op done) := by
  apply closed_of_log h.safe
  have hlog := h.log
  rw [Journal.store_call]
  cases done with
  | false => exact hlog
  | true =>
    cases op with
    | append event => exact absurd rfl (hop event)
    | createRun run => exact hlog
    | saveRun run => exact hlog
    | write ref document => exact hlog

theorem Closed.append (h : Closed env j) (he : ∀ k : CallKind, e.eventType ≠ k.start.value) :
    Closed env (j.call (.append e) done) := by
  apply closed_of_log h.safe
  have hlog := h.log
  rw [Journal.store_call]
  cases done with
  | false => exact hlog
  | true =>
    rintro ⟨k, hk⟩
    rcases openCall_concat hk with hstart | ⟨hbefore, -⟩
    · exact he k hstart
    · exact hlog ⟨k, hbefore⟩

theorem Closed.save (h : Closed env j) {d : DurableRunState} : Closed env ((j.hold d).call (.saveRun d) done) :=
  Closed.call ⟨h.safe, h.log⟩ nofun

end

section

variable {env : Env} {j : Journal} {kind : CallKind} {t : AuditEventType} {before after : Option Str}
  {refs : List DurableEvidenceRef} {c : Checkpoint} {ref : Str} {document : Document}

theorem closed_emit (ht : t.opensCall = false) :
    Triple (Closed env) (emit env t before after refs) (fun _ => Closed env) (fun _ => Closed env) := by
  have happend : ∀ {j d id done}, Closed env j → Closed env (j.call (.append (event id d t before after refs)) done) :=
    fun hj => hj.append (CallKind.value_ne_start ht)
  apply emit_triple
  · exact fun j hj _ _ => hj
  · exact fun j d event message hj _ => closed_of_log hj.safe (by rw [Journal.store_call]; exact hj.log)
  · exact fun j d id message hj _ _ => (happend hj).save
  · exact fun j d id hj _ _ => (happend hj).save

theorem closed_checkpoint :
    Triple (Closed env) (checkpoint env c) (fun _ => Closed env) (fun _ => Closed env) := by
  apply checkpoint_triple
  · exact fun j hj _ _ => hj
  · exact fun j d message hj _ => hj.save
  · exact fun j d hj _ => hj.save

theorem closed_write :
    Triple (Closed env) (perform env (.write ref document)) (fun _ => Closed env) (fun _ => Closed env) := by
  apply perform_triple
  · exact fun j hj _ => hj.call nofun
  · exact fun j message hj => hj.call nofun

theorem synced_saved {d : DurableRunState} (hd : d.lastEventSequence ≠ 0) :
    Synced env ((j.hold d).call (.saveRun d) true) :=
  ⟨d, rfl, Journal.save_state, hd⟩

/-- A saved event brings store and memory together, whatever was before. -/
theorem synced_emit : Triple (fun _ => True) (emit env t before after refs) (fun _ => Synced env) (fun _ _ => True) := by
  apply emit_triple
  · exact fun _ _ _ _ => trivial
  · exact fun _ _ _ _ _ _ => trivial
  · exact fun _ _ _ _ _ _ _ => trivial
  · exact fun j d id _ _ _ => synced_saved (Nat.succ_ne_zero _)

theorem synced_checkpoint : Triple (Synced env) (checkpoint env c) (fun _ => Synced env) (fun _ _ => True) := by
  apply checkpoint_triple
  · exact fun _ _ _ _ => trivial
  · exact fun _ _ _ _ _ => trivial
  · rintro j d ⟨d', hd', -, hzero⟩ hd
    cases hd.symm.trans hd'
    exact synced_saved hzero

theorem Synced.write {done : Bool} (h : Synced env j) : Synced env (j.call (.write ref document) done) := by
  obtain ⟨d, hd, hstate, hzero⟩ := h
  refine ⟨d, hd, ?_, hzero⟩
  rw [Journal.store_call, RunStore.step_write_state]
  exact hstate

theorem synced_write : Triple (Synced env) (perform env (.write ref document)) (fun _ => Synced env) (fun _ _ => True) := by
  apply perform_triple
  · exact fun j hj _ => hj.write
  · exact fun _ _ _ => trivial

/-- Between its append and its save an event is ahead of the run state. -/
theorem Synced.behind (h : Synced env j) {d : DurableRunState} (hd : j.durable = some d) {id : Str} :
    CrashSafe ((j.call (.append (event id d t before after refs)) true).store env) := by
  obtain ⟨d', hd', hstate, hzero⟩ := h
  cases hd.symm.trans hd'
  rw [Journal.store_call]
  refine .behind d (event id d t before after refs) hstate ?_ hzero ?_
  · simp
  · exact Nat.ne_of_lt (Nat.lt_succ_self _)

/-- A call is announced: the state saved with it is the excuse. -/
theorem working_start (hexcuse : kind = .tool ∨ ∃ s, after = some s ∧ s ∉ resumableStatuses) :
    Triple (fun j => Closed env j ∧ Synced env j) (emit env kind.start before after refs)
      (fun _ => Working env kind) (Broken env) := by
  apply emit_triple
  · exact fun j hj _ message => ⟨rfl, hj.1.safe⟩
  · exact fun j d event message hj _ => ⟨rfl, hj.1.safe.failed⟩
  · exact fun j d id message hj hd _ => ⟨rfl, AllSafe.failed (hj.1.safe.call (hj.2.behind hd))⟩
  · intro j d id hj hd _
    let j' := j.call (.append (event id d kind.start before after refs)) true
    let saved := (j'.hold (advance d after)).call (.saveRun (advance d after)) true
    have hstate : (saved.store env).state = some (advance d after) := Journal.save_state
    have hevents : (saved.store env).events = (j.store env).events ++ [event id d kind.start before after refs] :=
      Journal.save_events.trans Journal.append_events
    have hreason : Announced (saved.store env) ∨ Stopped (saved.store env) := by
      rcases hexcuse with rfl | ⟨s, rfl, hs⟩
      · refine .inl ⟨event id d .toolCalled before after refs, advance d after, ?_, rfl, hstate, rfl⟩
        rw [hevents]
        simp [CallKind.start]
      · exact .inr ⟨advance d (some s), hstate, hs⟩
    have hsafe : AllSafe env (j'.hold (advance d after)).trace := hj.1.safe.call (hj.2.behind hd)
    refine ⟨hsafe.call (hreason.elim .announced .stopped), synced_saved (Nat.succ_ne_zero _), ?_, hreason⟩
    intro k hk hopen
    rw [hevents] at hopen
    rcases openCall_concat hopen with hstart | ⟨hbefore, -⟩
    · exact hk (CallKind.eq_of_value_start hstart).symm
    · exact hj.1.log ⟨k, hbefore⟩

theorem working_write :
    Triple (Working env kind) (perform env (.write ref document)) (fun _ => Working env kind) (Broken env) := by
  apply perform_triple
  · intro j hj _
    have hevents : ((j.call (.write ref document) true).store env).events = (j.store env).events := by
      rw [Journal.store_call, RunStore.step_write_events]
    have hstate : ((j.call (.write ref document) true).store env).state = (j.store env).state := by
      rw [Journal.store_call, RunStore.step_write_state]
    have hexcuse := hj.excuse
    unfold Announced Stopped at hexcuse
    rw [← hevents, ← hstate] at hexcuse
    refine ⟨hj.safe.call (hexcuse.elim .announced .stopped), hj.synced.write, ?_, hexcuse⟩
    rw [hevents]
    exact hj.others
  · exact fun j message hj => ⟨rfl, hj.safe.failed⟩

/-- The event of its end closes the call. -/
theorem working_done :
    Triple (Working env kind) (emit env kind.done before after refs) (fun _ j => Closed env j ∧ Synced env j)
      (Broken env) := by
  have happend : ∀ {j d id}, Working env kind j →
      Closed env (j.call (.append (event id d kind.done before after refs)) true) := by
    intro j d id hj
    apply closed_of_log hj.safe
    rw [Journal.store_call]
    rintro ⟨k, hk⟩
    rcases openCall_concat hk with hstart | ⟨hopen, hdone⟩
    · exact CallKind.value_start_ne_done k kind hstart.symm
    · by_cases hkind : k = kind
      · exact hdone (hkind ▸ rfl)
      · exact hj.others k hkind hopen
  apply emit_triple
  · exact fun j hj _ message => ⟨rfl, hj.safe⟩
  · exact fun j d event message hj _ => ⟨rfl, hj.safe.failed⟩
  · exact fun j d id message hj _ _ => ⟨rfl, (happend hj).save.safe⟩
  · exact fun j d id hj _ _ => ⟨(happend hj).save, synced_saved (Nat.succ_ne_zero _)⟩

theorem stopped_saved {d : DurableRunState} (h : AllSafe env j.trace) (hd : d.workflowStatus ∉ resumableStatuses) :
    AllSafe env ((j.hold d).call (.saveRun d) true).trace := by
  apply AllSafe.call (j := j.hold d) h
  rw [Journal.store_call]
  exact .stopped ⟨d, rfl, hd⟩

/-- The failure of a run is recorded safely even when a call is open. -/
theorem failed_emit {s : Str} (hs : s ∉ resumableStatuses) :
    Triple (fun j => AllSafe env j.trace ∧ Synced env j) (emit env t before (some s) refs)
      (fun _ j => AllSafe env j.trace) (fun _ j => AllSafe env j.trace) := by
  apply emit_triple
  · exact fun j hj _ _ => hj.1
  · exact fun j d event message hj _ => hj.1.failed
  · exact fun j d id message hj hd _ => AllSafe.failed (hj.1.call (hj.2.behind hd))
  · exact fun j d id hj hd _ => stopped_saved (hj.1.call (hj.2.behind hd)) hs

theorem failed_checkpoint {s : Str} (hs : s ∉ resumableStatuses) (hc : c.workflowStatus = some s) :
    Triple (fun j => AllSafe env j.trace) (checkpoint env c) (fun _ j => AllSafe env j.trace)
      (fun _ j => AllSafe env j.trace) := by
  apply checkpoint_triple
  · exact fun j hj _ _ => hj
  · exact fun j d message hj _ => AllSafe.failed (j := j.hold (c.apply d)) hj
  · intro j d hj _
    apply stopped_saved hj
    show c.workflowStatus.getD d.workflowStatus ∉ resumableStatuses
    rw [hc]
    exact hs

end

end FailureOrchestrator
