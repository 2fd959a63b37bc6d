import FailureOrchestrator.Durable
import FailureOrchestrator.Exec

namespace FailureOrchestrator

open Exec

/-- What an append whose write fails leaves of its record: text that is no record, or all of it. -/
inductive Remnant where
  | nothing
  | part
  | record
  deriving DecidableEq

/-- The surroundings of a persisted run: what its directory holds at the start, the identifiers that `new_id`
draws, the store calls that raise a `PersistenceError`, by the number of calls made before, and what those leave that append. -/
structure Env where
  store : RunStore := {}
  newId : String → Nat → Str
  fails : Nat → Option Str := fun _ => none
  leaves : Nat → Remnant := fun _ => .nothing

/-- `RunPersistence`: the store calls made so far and the state of the current run. -/
structure Journal where
  trace : List StoreStep := []
  durable : Option DurableRunState := none

/-- The run's directory after the calls made so far. -/
def Journal.store (env : Env) (j : Journal) : RunStore := env.store.replay j.trace

def Journal.call (j : Journal) (op : StoreOp) (done : Bool) : Journal := { j with trace := j.trace ++ [⟨op, done⟩] }

/-- How a log ends: with the last of the records that were appended, or with what a failing append has left. -/
inductive LogEnd where
  | whole
  | part
  | record (event : AuditEvent)
  deriving DecidableEq

/-- How a log ends after calls that found the store `s`, when `n` calls were made before. -/
def logEnd (env : Env) (s : RunStore) (n : Nat) : List StoreStep → LogEnd
  | [] => .whole
  | ⟨.append event, false⟩ :: rest =>
    -- a call that the store refuses has not opened the file
    if (s.refusal (.append event)).isSome then logEnd env s (n + 1) rest
    else match env.leaves n with
      | .nothing => logEnd env s (n + 1) rest
      | .part => .part
      | .record => .record event
  | call :: rest => logEnd env (s.step call) (n + 1) rest

def Journal.logEnd (env : Env) (j : Journal) : LogEnd := FailureOrchestrator.logEnd env env.store 0 j.trace

/-- The optional arguments of `RunPersistence.checkpoint`. -/
structure Checkpoint where
  workflowStatus : Option Str := none
  technicalStatus : Option String := none
  policyOutcome : Option String := none
  currentAttempt : Option Nat := none
  stopReason : Option Str := none
  refs : List (RefField × Str) := []

def Checkpoint.apply (c : Checkpoint) (d : DurableRunState) : DurableRunState :=
  { d with
    workflowStatus := c.workflowStatus.getD d.workflowStatus
    technicalStatus := c.technicalStatus.elim d.technicalStatus fun s => some s.toList
    policyOutcome := c.policyOutcome.elim d.policyOutcome fun s => some s.toList
    currentAttempt := c.currentAttempt.getD d.currentAttempt
    stopReason := c.stopReason.elim d.stopReason some
    refs := c.refs ++ d.refs }

def kindDirs : List (String × String) :=
  [("input", "input"), ("classification", "classification"), ("plan", "plans"), ("attempt", "attempts"),
    ("proposal", "proposals"), ("patch", "proposals"), ("sandbox", "sandbox"), ("evaluation", "evaluations"),
    ("retry", "retry"), ("policy", "policy"), ("escalation", "escalation"), ("reviewer", "reviewer"),
    ("tool", "tools"), ("target", "target")]

/-- The path of an evidence file, relative to the run's directory. -/
def evidencePath (kind : String) (filename : Str) : Str :=
  replaceChar '\\' '/' (((kindDirs.lookup kind).getD kind).toList ++ ['/'] ++ filename)

def textContentType (filename : Str) : String :=
  if endsWith filename ".patch".toList then "text/x-diff"
  else if endsWith filename ".md".toList then "text/markdown"
  else "text/plain"

section

variable (env : Env)

/-- One store call: the store refuses it, its write fails, or it takes effect. -/
def perform (op : StoreOp) : Exec Journal RunError Unit := fun j =>
  match ((j.store env).refusal op).or (env.fails j.trace.length) with
  | some message => (.error (.persistence message), j.call op false)
  | none => (.ok (), j.call op true)

namespace RunPersistence

def durable : Exec Journal RunError DurableRunState := do
  let j ← read
  lift (j.durable.elim (.error (.persistence "durable run not initialized".toList)) .ok)

/-- The event that `emit` appends. -/
def event (eventId : Str) (d : DurableRunState) (eventType : AuditEventType) (stateBefore stateAfter : Option Str)
    (evidenceRefs : List DurableEvidenceRef) : AuditEvent :=
  { eventId
    runId := d.runId
    sequence := d.lastEventSequence + 1
    eventType := eventType.value
    stateBefore := some (stateBefore.getD d.workflowStatus)
    stateAfter := some (stateAfter.getD d.workflowStatus)
    evidenceRefs }

/-- The run state that `emit` saves. -/
def advance (d : DurableRunState) (stateAfter : Option Str) : DurableRunState :=
  { d with
    lastEventSequence := d.lastEventSequence + 1
    workflowStatus := stateAfter.getD d.workflowStatus }

/-- Appends an audit event, then saves the run state with its sequence number and status. -/
def emit (eventType : AuditEventType) (stateBefore stateAfter : Option Str)
    (evidenceRefs : List DurableEvidenceRef := []) : Exec Journal RunError Unit := do
  let d ← durable
  let j ← read
  perform env (.append (event (env.newId "evt" j.trace.length) d eventType stateBefore stateAfter evidenceRefs))
  update fun j => { j with durable := some (advance d stateAfter) }
  perform env (.saveRun (advance d stateAfter))

def startRun (runId workflowStatus : Str) : Exec Journal RunError Unit := do
  let d : DurableRunState := { runId, workflowStatus }
  perform env (.createRun d)
  update fun j => { j with durable := some d }
  emit env .runCreated none (some workflowStatus)

/-- Updates the given fields of the run state and saves it. -/
def checkpoint (c : Checkpoint) : Exec Journal RunError Unit := do
  let d ← durable
  update fun j => { j with durable := some (c.apply d) }
  perform env (.saveRun (c.apply d))

def writeJson (kind : String) (value : Json) (name : Str) : Exec Journal RunError DurableEvidenceRef := do
  let _ ← durable
  let filename := if endsWith name ".json".toList then name else name ++ ".json".toList
  perform env (.write (evidencePath kind filename) (.json value))
  return { kind, ref := evidencePath kind filename }

def writeText (kind : String) (content : Str) (name : Str) (maxChars : Nat) :
    Exec Journal RunError DurableEvidenceRef := do
  let _ ← durable
  perform env (.write (evidencePath kind name) (.text content maxChars))
  return { kind, ref := evidencePath kind name, contentType := textContentType name }

end RunPersistence

variable {env} {P : Journal → Prop} {Q : Unit → Journal → Prop} {E : RunError → Journal → Prop}

@[simp] theorem Journal.call_durable {j : Journal} {op : StoreOp} {done : Bool} :
    (j.call op done).durable = j.durable := rfl

/-- The journal after its run state was replaced in memory. -/
def Journal.hold (j : Journal) (d : DurableRunState) : Journal := { j with durable := some d }

@[simp] theorem Journal.hold_durable {j : Journal} {d : DurableRunState} : (j.hold d).durable = some d := rfl

@[simp] theorem Journal.hold_trace {j : Journal} {d : DurableRunState} : (j.hold d).trace = j.trace := rfl

@[simp] theorem Journal.store_call {j : Journal} {op : StoreOp} {done : Bool} :
    (j.call op done).store env = (j.store env).step ⟨op, done⟩ :=
  RunStore.replay_append _ _ _

theorem Journal.append_events {j : Journal} {e : AuditEvent} :
    ((j.call (.append e) true).store env).events = (j.store env).events ++ [e] := by
  rw [Journal.store_call, RunStore.step_append_events]

theorem Journal.save_state {j : Journal} {d : DurableRunState} :
    (((j.hold d).call (.saveRun d) true).store env).state = some d := by
  rw [Journal.store_call, RunStore.step_saveRun]

theorem Journal.save_events {j : Journal} {d : DurableRunState} :
    (((j.hold d).call (.saveRun d) true).store env).events = (j.store env).events := by
  rw [Journal.store_call, RunStore.step_saveRun]
  rfl

theorem durable_triple (h : ∀ j, P j → j.durable = none → ∀ message, E (.persistence message) j) :
    Triple P RunPersistence.durable (fun d j => P j ∧ j.durable = some d) E := by
  unfold RunPersistence.durable
  apply Triple.read_bind
  intro j hj
  cases hd : j.durable with
  | none =>
    refine Triple.lift (fun _ hr => nomatch hr) ?_
    rintro e hr j' rfl
    cases hr
    exact h _ hj hd _
  | some d =>
    refine Triple.lift ?_ fun _ hr => nomatch hr
    rintro d' hr j' rfl
    cases hr
    exact ⟨hj, hd⟩

/-- A call either takes effect, which the store allowed, or raises and leaves the store as it was. -/
theorem perform_triple {op : StoreOp}
    (hdone : ∀ j, P j → (j.store env).refusal op = none → Q () (j.call op true))
    (hfail : ∀ j message, P j → E (.persistence message) (j.call op false)) : Triple P (perform env op) Q E := by
  intro j hj
  unfold perform
  cases hr : ((j.store env).refusal op).or (env.fails j.trace.length) with
  | some message => exact hfail j message hj
  | none => exact hdone j hj (Option.or_eq_none_iff.mp hr).1

/-- All that `emit` can do: no run, no append, an append without its save, or both. -/
theorem emit_triple {t : AuditEventType} {before after : Option Str} {refs : List DurableEvidenceRef}
    (hmissing : ∀ j, P j → j.durable = none → ∀ message, E (.persistence message) j)
    (hunlogged : ∀ j d event message, P j → j.durable = some d → E (.persistence message) (j.call (.append event) false))
    (hunsaved : ∀ j d id message, P j → j.durable = some d →
      (j.store env).refusal (.append (RunPersistence.event id d t before after refs)) = none →
      E (.persistence message) (((j.call (.append (RunPersistence.event id d t before after refs)) true).hold
        (RunPersistence.advance d after)).call (.saveRun (RunPersistence.advance d after)) false))
    (hsaved : ∀ j d id, P j → j.durable = some d →
      (j.store env).refusal (.append (RunPersistence.event id d t before after refs)) = none →
      Q () (((j.call (.append (RunPersistence.event id d t before after refs)) true).hold
        (RunPersistence.advance d after)).call (.saveRun (RunPersistence.advance d after)) true)) :
    Triple P (RunPersistence.emit env t before after refs) Q E := by
  unfold RunPersistence.emit
  apply Triple.bind (durable_triple hmissing)
  intro d
  apply Triple.read_bind
  rintro j ⟨hj, hd⟩
  let event := RunPersistence.event (env.newId "evt" j.trace.length) d t before after refs
  apply Triple.bind (Q := fun _ j' => (j.store env).refusal (.append event) = none ∧ j' = j.call (.append event) true)
  · apply perform_triple
    · rintro j' rfl hrefusal
      exact ⟨hrefusal, rfl⟩
    · rintro j' message rfl
      exact hunlogged _ d _ message hj hd
  intro _
  apply Triple.bind (Q := fun _ j' => (j.store env).refusal (.append event) = none ∧
    j' = (j.call (.append event) true).hold (RunPersistence.advance d after))
  · apply Triple.update
    rintro j' ⟨hrefusal, rfl⟩
    exact ⟨hrefusal, rfl⟩
  intro _
  apply perform_triple
  · rintro j' ⟨hrefusal, rfl⟩ -
    exact hsaved j d _ hj hd hrefusal
  · rintro j' message ⟨hrefusal, rfl⟩
    exact hunsaved j d _ message hj hd hrefusal

theorem checkpoint_triple {c : Checkpoint} (hmissing : ∀ j, P j → j.durable = none → ∀ message, E (.persistence message) j)
    (hunsaved : ∀ j d message, P j → j.durable = some d →
      E (.persistence message) ((j.hold (c.apply d)).call (.saveRun (c.apply d)) false))
    (hsaved : ∀ j d, P j → j.durable = some d → Q () ((j.hold (c.apply d)).call (.saveRun (c.apply d)) true)) :
    Triple P (RunPersistence.checkpoint env c) Q E := by
  unfold RunPersistence.checkpoint
  apply Triple.bind (durable_triple hmissing)
  intro d
  apply Triple.bind (Q := fun _ j' => ∃ j, P j ∧ j.durable = some d ∧ j' = j.hold (c.apply d))
  · apply Triple.update
    rintro j ⟨hj, hd⟩
    exact ⟨j, hj, hd, rfl⟩
  intro _
  apply perform_triple
  · rintro j' ⟨j, hj, hd, rfl⟩ -
    exact hsaved j d hj hd
  · rintro j' message ⟨j, hj, hd, rfl⟩
    exact hunsaved j d message hj hd

end

end FailureOrchestrator
