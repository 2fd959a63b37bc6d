import FailureOrchestrator.RealCi
import FailureOrchestrator.Recovery
import FailureOrchestrator.StateRecord

namespace FailureOrchestrator

/-! ## The records of a log -/

/-- Why a line of a log is no event: `_read_raw` counts the first as a malformed record, the second is raised. -/
inductive LineError where
  | malformed
  | raised
  deriving DecidableEq

/-- The floats of a JSON document, as `int` and `bool` read them. -/
class JsonNumbers (F : Type) extends PyFloat F where
  truthy : F → Bool
  toInt : F → Except LineError Int

/-- Documents without floats. -/
@[reducible] def wholeNumbers : JsonNumbers Unit where
  toPyFloat := noFloats
  truthy _ := true
  toInt _ := .error .malformed

/-- What the consistency check reads of an event; an event type that is not a text is left out. -/
structure LoggedEvent where
  sequence : Int
  eventType : Option Str

section

variable {F : Type} [JsonNumbers F]

/-- `data.get(key)`, if it is true. -/
def trueValue (d : List (Str × JsonValue F)) (key : String) : Option (JsonValue F) :=
  (d.lookup key.toList).filter fun
    | .float x => JsonNumbers.truthy x
    | v => !v.isFalsy

def requiredValue (d : List (Str × JsonValue F)) (key : String) : Except LineError (JsonValue F) :=
  (d.lookup key.toList).elim (.error .malformed) .ok

/-- `r.get("kind")` for every reference `r`: the items of a list may be no dicts, and texts are iterated as texts. -/
def checkReferences (d : List (Str × JsonValue F)) : Except LineError Unit :=
  match trueValue d "evidence_refs" with
  | none => .ok ()
  | some (.arr items) =>
    if items.all fun | .obj _ => true | _ => false then .ok () else .error .raised
  | some (.str _) | some (.obj _) => .error .raised
  | some _ => .error .malformed

/-- An item that `dict` takes as a key and a value. -/
def isEntry : JsonValue F → Bool
  | .arr [.arr _, _] | .arr [.obj _, _] => false
  | .arr items => items.length = 2
  | .str s => s.length = 2
  | .obj entries => entries.length = 2
  | _ => false

/-- `dict(data.get("metadata") or {})` -/
def checkMetadata (d : List (Str × JsonValue F)) : Except LineError Unit :=
  match trueValue d "metadata" with
  | none | some (.obj _) => .ok ()
  | some (.arr items) => if items.all isEntry then .ok () else .error .malformed
  | some _ => .error .malformed

variable [UnicodeData]

/-- `int(value)` -/
def intOf : JsonValue F → Except LineError Int
  | .int n => .ok n
  | .bool b => .ok (if b then 1 else 0)
  | .float x => JsonNumbers.toInt x
  | .str s => (pyIntText s).mapError fun _ => .malformed
  | .null | .arr _ | .obj _ => .error .malformed

/-- `AuditEvent.from_dict` -/
def LoggedEvent.fromDict : JsonValue F → Except LineError LoggedEvent
  | .obj d => do
    checkReferences d
    let _ ← requiredValue d "event_id"
    let _ ← requiredValue d "run_id"
    let sequence ← intOf (← requiredValue d "sequence")
    let eventType ← requiredValue d "event_type"
    checkMetadata d
    return ⟨sequence, match eventType with | .str s => some s | _ => none⟩
  | _ => .error .raised

variable (F)

/-- The events of the lines from the line number `idx` on, and whether the last line is malformed; the error is that of
the first corrupt line, or none if another exception is raised. -/
def readLogLines (runId : Str) : Nat → List Str → Except (Option Str) (List LoggedEvent × Bool)
  | _, [] => .ok ([], false)
  | idx, line :: rest =>
    if (strip line).isEmpty then readLogLines runId (idx + 1) rest
    else
      match (JsonValue.loads line).elim (.error .malformed) (LoggedEvent.fromDict (F := F)) with
      | .ok e => (readLogLines runId (idx + 1) rest).map fun (events, trailing) => (e :: events, trailing)
      | .error .malformed =>
        if rest.isEmpty then .ok ([], true)
        else .error (some ("corrupt audit event at line ".toList ++ natStr idx ++ " for ".toList ++ runId))
      | .error .raised => .error none

/-- `read_events_tolerant` of the content of `events.jsonl`. -/
def readLog (runId : Str) (content : Option Str) : Except (Option Str) (List LoggedEvent × Bool) :=
  content.elim (.ok ([], false)) fun text => readLogLines F runId 1 (splitlines text)

end

/-! ## The check -/

/-- The first event out of sequence. -/
def logGap : Int → List LoggedEvent → List ConsistencyIssue
  | _, [] => []
  | expected, e :: events =>
    if e.sequence = expected then logGap (expected + 1) events
    else [⟨"SEQUENCE_GAP", "expected sequence ".toList ++ intStr expected ++ ", found ".toList ++ intStr e.sequence⟩]

namespace StateRecord

variable (d : StateRecord)

def storedRefs : List (String × Option Str) :=
  [("failure_event", d.failureEventRef), ("classification", d.classificationRef), ("plan", d.currentPlanRef),
    ("proposal", d.currentProposalRef), ("evaluation", d.latestEvaluationRef), ("policy", d.latestPolicyDecisionRef),
    ("retry", d.latestRetryDecisionRef), ("escalation", d.escalationRef), ("reviewer_decision", d.reviewerDecisionRef)]

def logMismatch (events : List LoggedEvent) : List ConsistencyIssue :=
  match events.getLast? with
  | none => []
  | some last =>
    if d.lastEventSequence ≠ 0 ∧ d.lastEventSequence ≠ last.sequence then
      [⟨"STATE_EVENT_SEQUENCE_MISMATCH", "state.last_event_sequence=".toList ++ intStr d.lastEventSequence ++
        " != last event sequence=".toList ++ intStr last.sequence⟩]
    else []

/-- The references without a file below the run's directory. -/
def missingArtifacts (isFile : Str → Bool) : List ConsistencyIssue :=
  d.storedRefs.flatMap fun (label, ref) =>
    match ref with
    | none | some [] => []
    | some ref => if isFile ref then [] else [⟨"MISSING_ARTIFACT", label.toList ++ " missing: ".toList ++ ref⟩]

def missingSummary (isFile : Str → Bool) : List ConsistencyIssue :=
  if d.workflowStatus = RunStatus.awaitingHuman.value ∧ isFile "escalation/summary.json".toList = false ∧
      d.escalationRef.getD [] = [] then
    [⟨"MISSING_ESCALATION", "AWAITING_HUMAN but escalation summary artifact missing".toList⟩]
  else []

def missingEvaluationEvent (events : List LoggedEvent) : List ConsistencyIssue :=
  if d.workflowStatus ∈ evaluatedStatuses ∧
      ∀ e ∈ events, e.eventType ≠ some AuditEventType.evaluationCompleted.value then
    [⟨"MISSING_EVAL_EVENT", "state=".toList ++ d.workflowStatus ++ " but no EVALUATION_COMPLETED event".toList⟩]
  else []

/-- The issues that the artifacts and the evaluation event give. -/
def artifactIssues (isFile : Str → Bool) (events : List LoggedEvent) : List ConsistencyIssue :=
  d.missingArtifacts isFile ++ d.missingSummary isFile ++ d.missingEvaluationEvent events

end StateRecord

section

variable (F : Type) [JsonNumbers F] [UnicodeData]

/-- The issues of `verify_run_consistency` of a run for its state and the content of `events.jsonl`; `none` if it raises. -/
def verifyLog (runId : Str) (d : StateRecord) (isFile : Str → Bool) (content : Option Str) : Option (List ConsistencyIssue) :=
  let issues (events : List LoggedEvent) : List ConsistencyIssue :=
    logGap 1 events ++ d.logMismatch events ++ d.artifactIssues isFile events
  match readLog F runId content with
  | .ok (events, trailing) =>
    some ((if trailing then [⟨"TRAILING_CORRUPT_EVENT", "events.jsonl has a malformed trailing record".toList⟩]
      else []) ++ issues events)
  | .error (some message) => some (⟨"AUDIT_READ", message⟩ :: issues [])
  | .error none => none

end

/-- `n` sequence numbers from `start` on. -/
def sequencesFrom (start : Int) (n : Nat) : List Int := (List.range n).map fun i : Nat => start + (i : Int)

theorem sequencesFrom_succ (start : Int) (n : Nat) : sequencesFrom start (n + 1) = start :: sequencesFrom (start + 1) n := by
  unfold sequencesFrom
  rw [List.range_succ_eq_map, List.map_cons, List.map_map, List.cons.injEq]
  refine ⟨by simp, List.map_congr_left fun i _ => ?_⟩
  simp only [Function.comp_apply, Nat.succ_eq_add_one]
  omega

/-- A log without gaps holds the sequence numbers from its first one on. -/
theorem logGap_nil_iff (events : List LoggedEvent) (start : Int) :
    logGap start events = [] ↔ events.map LoggedEvent.sequence = sequencesFrom start events.length := by
  induction events generalizing start with
  | nil => simp [logGap, sequencesFrom]
  | cons e events ih =>
    unfold logGap
    rw [List.length_cons, sequencesFrom_succ, List.map_cons, List.cons.injEq, ← ih (start + 1)]
    split
    next h => simp [h]
    next h => simp [h]

theorem logMismatch_nil_iff {d : StateRecord} {events : List LoggedEvent} : d.logMismatch events = [] ↔
    events = [] ∨ d.lastEventSequence = 0 ∨
      ∃ last, events.getLast? = some last ∧ d.lastEventSequence = last.sequence := by
  unfold StateRecord.logMismatch
  cases hlast : events.getLast? with
  | none => simp [List.getLast?_eq_none_iff.mp hlast]
  | some last =>
    have hne : events ≠ [] := fun hnil => by simp [hnil] at hlast
    simp only [hne, false_or, Option.some.injEq, exists_eq_left']
    split
    next h => simp [h.1, h.2]
    next h =>
      simp only [true_iff]
      tauto

/-- The sequence number of the last event of a log without gaps. -/
theorem last_of_logGap {events : List LoggedEvent} (h : logGap 1 events = []) {last : LoggedEvent}
    (hlast : events.getLast? = some last) : last.sequence = events.length := by
  have hseq := (logGap_nil_iff events 1).mp h
  have hmap : (events.map LoggedEvent.sequence).getLast? = some last.sequence := by
    rw [List.getLast?_map, hlast]
    rfl
  unfold sequencesFrom at hseq
  rw [hseq, List.getLast?_map] at hmap
  cases hlen : events.length with
  | zero =>
    rw [hlen] at hmap
    cases hmap
  | succ n =>
    rw [hlen, List.range_succ, List.getLast?_concat] at hmap
    have hlength : 1 + (n : Int) = last.sequence := Option.some.inj hmap
    push_cast
    omega

section

variable {F : Type} [JsonNumbers F] [UnicodeData] {runId : Str} {d : StateRecord} {isFile : Str → Bool}
  {content : Option Str}

/-- When the check finds nothing. -/
theorem verifyLog_valid_iff : verifyLog F runId d isFile content = some [] ↔ ∃ events,
    readLog F runId content = .ok (events, false) ∧ logGap 1 events = [] ∧ d.logMismatch events = [] ∧
      d.artifactIssues isFile events = [] := by
  unfold verifyLog
  constructor
  · intro h
    cases hread : readLog F runId content with
    | ok log =>
      obtain ⟨events, trailing⟩ := log
      rw [hread] at h
      cases trailing with
      | true => cases h
      | false =>
        have hnil := Option.some.inj h
        simp only [Bool.false_eq_true, if_false, List.nil_append, List.append_eq_nil_iff] at hnil
        exact ⟨events, rfl, hnil.1.1, hnil.1.2, hnil.2⟩
    | error message =>
      rw [hread] at h
      cases message <;> cases h
  · rintro ⟨events, hread, hgap, hmismatch, hartifacts⟩
    rw [hread]
    simp [hgap, hmismatch, hartifacts]

/-- A valid report means a whole log exactly if an intact log is empty just when the state is at zero. -/
theorem valid_whole_iff :
    (verifyLog F runId d isFile content = some [] → ∃ events, readLog F runId content = .ok (events, false) ∧
      events.map LoggedEvent.sequence = sequencesFrom 1 events.length ∧ d.lastEventSequence = events.length) ↔
    ∀ events, readLog F runId content = .ok (events, false) → logGap 1 events = [] →
      d.artifactIssues isFile events = [] → (events = [] ↔ d.lastEventSequence = 0) := by
  constructor
  · intro hwhole events hread hgap hartifacts
    have hlast : d.logMismatch events = [] → d.lastEventSequence = events.length := by
      intro hmismatch
      obtain ⟨events', hread', -, hlast⟩ := hwhole (verifyLog_valid_iff.mpr ⟨events, hread, hgap, hmismatch, hartifacts⟩)
      cases hread.symm.trans hread'
      exact hlast
    constructor
    · intro hnil
      rw [hlast (logMismatch_nil_iff.mpr (.inl hnil)), hnil]
      rfl
    · intro hzero
      have hlength := hlast (logMismatch_nil_iff.mpr (.inr (.inl hzero)))
      exact List.eq_nil_of_length_eq_zero (by omega)
  · intro hempty hvalid
    obtain ⟨events, hread, hgap, hmismatch, hartifacts⟩ := verifyLog_valid_iff.mp hvalid
    refine ⟨events, hread, (logGap_nil_iff events 1).mp hgap, ?_⟩
    have hiff := hempty events hread hgap hartifacts
    rcases logMismatch_nil_iff.mp hmismatch with hnil | hzero | ⟨last, hlast, heq⟩
    · rw [hiff.mp hnil, hnil]
      rfl
    · rw [hzero, hiff.mpr hzero]
      rfl
    · rw [heq, last_of_logGap hgap hlast]

end

/-- A state whose log is gone, and a log whose first event the state does not know. -/
def lostState (lastEventSequence : Int) : StateRecord where
  schemaVersion := durableSchema
  runId := "run-1".toList
  workflowStatus := RunStatus.received.value
  createdAt := "2026-01-05T10:00:00+00:00".toList
  updatedAt := "2026-01-05T10:00:01+00:00".toList
  lastEventSequence

/-- The log of a run after its first append. -/
def createdLine : Str :=
  ("\x7b\"event_id\": \"evt-1\", \"run_id\": \"run-1\", \"sequence\": 1, \"event_type\": \"RUN_CREATED\"\x7d\n").toList

/-- A lost log and a state that is behind its first event are both valid. -/
theorem lostLog_valid :
    @verifyLog Unit wholeNumbers asciiData "run-1".toList (lostState 2) (fun _ => true) none = some [] ∧
    @verifyLog Unit wholeNumbers asciiData "run-1".toList (lostState 0) (fun _ => true) (some createdLine) = some [] ∧
    ¬ (@verifyLog Unit wholeNumbers asciiData "run-1".toList (lostState 2) (fun _ => true) none = some [] →
      ∃ events, @readLog Unit wholeNumbers asciiData "run-1".toList none = .ok (events, false) ∧
        events.map LoggedEvent.sequence = sequencesFrom 1 events.length ∧
        (lostState 2).lastEventSequence = events.length) := by
  have hlost : @verifyLog Unit wholeNumbers asciiData "run-1".toList (lostState 2) (fun _ => true) none = some [] := by
    decide +kernel
  refine ⟨hlost, by decide +kernel, fun h => ?_⟩
  obtain ⟨events, hread, -, hlast⟩ := h hlost
  cases hread
  cases hlast

end FailureOrchestrator
