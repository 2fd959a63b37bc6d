import FailureOrchestrator.RunGate

namespace FailureOrchestrator

open Exec RunPersistence

def RunStore.Evaluated (s : RunStore) : Prop := ∃ e ∈ s.events, e.eventType = AuditEventType.evaluationCompleted.value

def escalationSummary : Str := "escalation/summary.json".toList

/-- A workflow status has the evidence it speaks of. -/
structure Fits (s : RunStore) (status : Str) : Prop where
  evaluated : status ∈ evaluatedStatuses → s.Evaluated
  escalated : status = RunStatus.awaitingHuman.value → s.isFile escalationSummary = true

/-- The log is numbered from one on, and a run state counts its events and refers to files that exist. -/
structure Counted (s : RunStore) (d : DurableRunState) : Prop where
  sequence : s.events.map (·.sequence) = List.range' 1 s.events.length
  distinct : (s.events.map (·.eventId)).Nodup
  last : d.lastEventSequence = s.events.length
  refs : ∀ r ∈ d.refs, s.isFile r.2 = true

structure InSync (s : RunStore) (d : DurableRunState) : Prop extends Counted s d where
  status : Fits s d.workflowStatus

/-- The stored run state is in step with the log. -/
def RunStore.Consistent (s : RunStore) : Prop := ∃ d, s.state = some d ∧ InSync s d

section

variable {s : RunStore} {d d' : DurableRunState} {op : StoreOp} {status : Str}

theorem RunStore.Evaluated.apply (h : s.Evaluated) (op : StoreOp) : (s.apply op).Evaluated := by
  obtain ⟨e, he, htype⟩ := h
  cases op with
  | createRun run => exact ⟨e, he, htype⟩
  | saveRun run => exact ⟨e, he, htype⟩
  | append event => exact ⟨e, List.mem_append_left _ he, htype⟩
  | write ref document => exact ⟨e, he, htype⟩

theorem RunStore.isFile_apply {ref : Str} (h : s.isFile ref = true) (op : StoreOp) : (s.apply op).isFile ref = true := by
  cases op with
  | createRun run => exact h
  | saveRun run => exact h
  | append event => exact h
  | write other document =>
    show List.any ((other, document) :: s.files) _ = true
    rw [List.any_cons, Bool.or_eq_true]
    exact .inr h

theorem RunStore.isFile_write (ref : Str) (document : Document) : (s.apply (.write ref document)).isFile ref = true := by
  show List.any ((ref, document) :: s.files) _ = true
  simp

theorem Fits.apply (h : Fits s status) (op : StoreOp) : Fits (s.apply op) status where
  evaluated hs := (h.evaluated hs).apply op
  escalated hs := RunStore.isFile_apply (h.escalated hs) op

theorem latestSequence_range' (h : s.events.map (·.sequence) = List.range' 1 s.events.length) :
    s.latestSequence = s.events.length := by
  unfold RunStore.latestSequence
  rcases List.eq_nil_or_concat s.events with hnil | ⟨init, e, hlast⟩
  · rw [hnil]
    rfl
  · rw [List.concat_eq_append] at hlast
    rw [hlast, List.map_append, List.length_append, List.length_singleton, List.range'_concat] at h
    have he : e.sequence = 1 + 1 * init.length := List.singleton_inj.mp (List.append_inj_right' h rfl)
    rw [hlast, List.getLast?_concat, List.length_append, List.length_singleton]
    show e.sequence = _
    omega

/-- A call that is no append keeps the count of any run state. -/
theorem Counted.apply (h : Counted s d) (hop : ∀ event, op ≠ .append event) : Counted (s.apply op) d := by
  have hevents : (s.apply op).events = s.events := by
    cases op with
    | createRun run => rfl
    | saveRun run => rfl
    | append event => exact absurd rfl (hop event)
    | write ref document => rfl
  constructor
  · rw [hevents]
    exact h.sequence
  · rw [hevents]
    exact h.distinct
  · rw [hevents]
    exact h.last
  · exact fun r hr => RunStore.isFile_apply (h.refs r hr) op

/-- The store takes the next event, and the run state that counts it goes with the longer log. -/
theorem Counted.append {event : AuditEvent} (h : Counted s d) (hrefusal : s.refusal (.append event) = none)
    (hlast : d'.lastEventSequence = d.lastEventSequence + 1) (hrefs : ∀ r ∈ d'.refs, s.isFile r.2 = true) :
    Counted (s.apply (.append event)) d' := by
  have hevents : (s.apply (.append event)).events = s.events ++ [event] := rfl
  obtain ⟨hfresh, hsequence⟩ := RunStore.refusal_append_none_iff.mp hrefusal
  rw [latestSequence_range' h.sequence] at hsequence
  constructor
  · rw [hevents, List.map_append, h.sequence, List.length_append, List.length_singleton, List.range'_concat,
      List.map_singleton, hsequence, Nat.one_mul, Nat.add_comm]
  · rw [hevents, List.map_append, List.map_singleton]
    refine h.distinct.append (List.nodup_singleton _) ?_
    rw [List.disjoint_singleton]
    exact hfresh
  · rw [hlast, h.last, hevents, List.length_append, List.length_singleton]
  · exact fun r hr => RunStore.isFile_apply (hrefs r hr) _

theorem InSync.apply (h : InSync s d) (hop : ∀ event, op ≠ .append event) : InSync (s.apply op) d :=
  { h.toCounted.apply hop with status := h.status.apply op }

end

variable {env : Env} {j : Journal}

/-- The run state in memory is in step with the log. -/
def Held (env : Env) (j : Journal) : Prop := ∃ d, j.durable = some d ∧ InSync (j.store env) d

/-- The run state in memory is in step with the log and stored. -/
def Stored (env : Env) (j : Journal) : Prop :=
  ∃ d, j.durable = some d ∧ (j.store env).state = some d ∧ InSync (j.store env) d

theorem Stored.held (h : Stored env j) : Held env j := by
  obtain ⟨d, hd, -, hsync⟩ := h
  exact ⟨d, hd, hsync⟩

theorem Stored.consistent (h : Stored env j) : (j.store env).Consistent := by
  obtain ⟨d, -, hstate, hsync⟩ := h
  exact ⟨d, hstate, hsync⟩

theorem store_call_true {op : StoreOp} : (j.call op true).store env = (j.store env).apply op := by
  rw [Journal.store_call]
  rfl

theorem store_call_false {op : StoreOp} : (j.call op false).store env = j.store env := by
  rw [Journal.store_call]
  rfl

theorem Held.failed {op : StoreOp} (h : Held env j) : Held env (j.call op false) := by
  unfold Held
  rw [store_call_false]
  exact h

theorem Stored.failed {op : StoreOp} (h : Stored env j) : Stored env (j.call op false) := by
  unfold Stored
  rw [store_call_false]
  exact h

/-- How a step of a run in sync raises: what is in memory still counts the log, and only a failed store call leaves the
stored state behind it. -/
def RaisedInSync (env : Env) (e : RunError) (j : Journal) : Prop := Held env j ∧ (e.isPersistence = true ∨ Stored env j)

theorem Stored.raised (h : Stored env j) (e : RunError) : RaisedInSync env e j := ⟨h.held, .inr h⟩

theorem Held.raised (h : Held env j) (message : Str) : RaisedInSync env (.persistence message) j := ⟨h, .inl rfl⟩

section

variable {t : AuditEventType} {before after : Option Str} {refs : List DurableEvidenceRef} {R : RunStore → Prop}

end

/-- Between the steps of a run its state is stored in step with the log, and its statuses are allowed. -/
structure Kept (env : Env) (allowed : RunStatus → Prop) (R : RunStore → Prop) (w : World) : Prop where
  machine : allowed w.machine.status
  state : allowed w.state.status
  store : R (w.journal.store env)
  stored : Stored env w.journal

section

variable {allowed : RunStatus → Prop} {R : RunStore → Prop}

end

end FailureOrchestrator
