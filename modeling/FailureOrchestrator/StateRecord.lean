import FailureOrchestrator.AuditRecord
import FailureOrchestrator.JsonDicts
import FailureOrchestrator.LoggedText

namespace FailureOrchestrator

def durableSchema : Str := "foundation.durable.v1".toList

/-- A reading of `utc_now()`. -/
structure Instant where
  text : Str
  nonempty : text ≠ []

/-- A dict of texts with its keys in order. -/
structure TextDict where
  entries : List (Str × Str)
  sorted : (entries.map Prod.fst).Pairwise (· < ·)

theorem TextDict.nil_ordered : (([] : List (Str × Str)).map Prod.fst).Pairwise (· < ·) := List.Pairwise.nil

/-- The persisted snapshot of a run with all its fields. -/
structure StateRecord where
  schemaVersion : Str
  runId : Str
  workflowStatus : Str
  technicalStatus : Option Str := none
  policyOutcome : Option Str := none
  currentAttempt : Int := 0
  createdAt : Str
  updatedAt : Str
  failureEventRef : Option Str := none
  classificationRef : Option Str := none
  currentPlanRef : Option Str := none
  currentProposalRef : Option Str := none
  latestEvaluationRef : Option Str := none
  latestPolicyDecisionRef : Option Str := none
  latestRetryDecisionRef : Option Str := none
  escalationRef : Option Str := none
  reviewerDecisionRef : Option Str := none
  lastEventSequence : Int := 0
  stopReason : Option Str := none
  evidenceIndex : TextDict := ⟨[], TextDict.nil_ordered⟩

/-- The exceptions of the state stores; `unmodelled` stands for records with fields of types that no store writes. -/
inductive StateError where
  | fileNotFound (message : Str)
  | persistence (message : Str)
  | unsupportedSchema (message : Str)
  | keyError (key : String)
  | valueError
  | unmodelled
  deriving DecidableEq

section Dicts

variable {F : Type}

def TextDict.toJson (d : TextDict) : List (Str × JsonValue F) := d.entries.map fun e => (e.1, .str e.2)

/-- The entries of a state's dict. -/
def StateRecord.items (s : StateRecord) : List (Str × JsonValue F) := [
  ("schema_version".toList, .str s.schemaVersion),
  ("run_id".toList, .str s.runId),
  ("workflow_status".toList, .str s.workflowStatus),
  ("technical_status".toList, jsonOption s.technicalStatus),
  ("policy_outcome".toList, jsonOption s.policyOutcome),
  ("current_attempt".toList, .int s.currentAttempt),
  ("created_at".toList, .str s.createdAt),
  ("updated_at".toList, .str s.updatedAt),
  ("failure_event_ref".toList, jsonOption s.failureEventRef),
  ("classification_ref".toList, jsonOption s.classificationRef),
  ("current_plan_ref".toList, jsonOption s.currentPlanRef),
  ("current_proposal_ref".toList, jsonOption s.currentProposalRef),
  ("latest_evaluation_ref".toList, jsonOption s.latestEvaluationRef),
  ("latest_policy_decision_ref".toList, jsonOption s.latestPolicyDecisionRef),
  ("latest_retry_decision_ref".toList, jsonOption s.latestRetryDecisionRef),
  ("escalation_ref".toList, jsonOption s.escalationRef),
  ("reviewer_decision_ref".toList, jsonOption s.reviewerDecisionRef),
  ("last_event_sequence".toList, .int s.lastEventSequence),
  ("stop_reason".toList, jsonOption s.stopReason),
  ("evidence_index".toList, .obj s.evidenceIndex.toJson)]

def StateRecord.toDict (s : StateRecord) : JsonValue F := .obj (dictOf s.items)

/-- `str(data.get(key) or default)`. -/
def stateText (d : List (Str × JsonValue F)) (key : String) (default : Str) : Except StateError Str :=
  (fieldOr d key default).mapError fun _ => .unmodelled

/-- `str(data[key])`. -/
def stateKey (d : List (Str × JsonValue F)) (key : String) : Except StateError Str :=
  (fieldOf d key).mapError fun e => if e = .malformed then .keyError key else .unmodelled

/-- `data.get(key)`. -/
def stateOption (d : List (Str × JsonValue F)) (key : String) : Except StateError (Option Str) :=
  (optionalField d key).mapError fun _ => .unmodelled

/-- `int(data.get(key) or 0)`. -/
def stateInt (d : List (Str × JsonValue F)) (key : String) : Except StateError Int :=
  match d.lookup key.toList with
  | none => .ok 0
  | some (.int n) => .ok n
  | some v => if v.isFalsy then .ok 0 else .error .unmodelled

/-- The entries of a dict of texts. -/
def textEntries : List (Str × JsonValue F) → Option (List (Str × Str))
  | [] => some []
  | (key, .str s) :: entries => (textEntries entries).map ((key, s) :: ·)
  | _ :: _ => none

/-- `dict(data.get("evidence_index") or {})`. -/
def stateIndex (d : List (Str × JsonValue F)) : Except StateError TextDict :=
  match d.lookup "evidence_index".toList with
  | none => .ok ⟨[], TextDict.nil_ordered⟩
  | some (.obj entries) =>
    match textEntries entries with
    | some texts => if h : (texts.map Prod.fst).Pairwise (· < ·) then .ok ⟨texts, h⟩ else .error .unmodelled
    | none => .error .unmodelled
  | some v => if v.isFalsy then .ok ⟨[], TextDict.nil_ordered⟩ else .error .unmodelled

def supportedSchema (version : Str) : Bool :=
  inSet version ["foundation.durable.v1", "1.0", "foundation.v1"] || startsWith version "foundation.durable".toList

/-- The legacy version is upgraded. -/
def readSchema (version : Str) : Str := if version = "1.0".toList then durableSchema else nonEmptyOr version durableSchema

/-- The schema version that a state is read with. -/
def schemaField (d : List (Str × JsonValue F)) : Except StateError Str := do
  let version ← stateText d "schema_version" []
  if !version.isEmpty && !supportedSchema version then
    .error (.unsupportedSchema ("unsupported durable schema: ".toList ++ version))
  else return readSchema version

/-- `DurableRunState.from_dict`; the clock is read for the times that are missing. -/
def StateRecord.fromDict (created updated : Instant) (d : List (Str × JsonValue F)) : Except StateError StateRecord := do
  let schemaVersion ← schemaField d
  let runId ← stateKey d "run_id"
  let workflowStatus ← stateKey d "workflow_status"
  let technicalStatus ← stateOption d "technical_status"
  let policyOutcome ← stateOption d "policy_outcome"
  let currentAttempt ← stateInt d "current_attempt"
  let createdAt ← stateText d "created_at" created.text
  let updatedAt ← stateText d "updated_at" updated.text
  let failureEventRef ← stateOption d "failure_event_ref"
  let classificationRef ← stateOption d "classification_ref"
  let currentPlanRef ← stateOption d "current_plan_ref"
  let currentProposalRef ← stateOption d "current_proposal_ref"
  let latestEvaluationRef ← stateOption d "latest_evaluation_ref"
  let latestPolicyDecisionRef ← stateOption d "latest_policy_decision_ref"
  let latestRetryDecisionRef ← stateOption d "latest_retry_decision_ref"
  let escalationRef ← stateOption d "escalation_ref"
  let reviewerDecisionRef ← stateOption d "reviewer_decision_ref"
  let lastEventSequence ← stateInt d "last_event_sequence"
  let stopReason ← stateOption d "stop_reason"
  let evidenceIndex ← stateIndex d
  return { schemaVersion, runId, workflowStatus, technicalStatus, policyOutcome, currentAttempt, createdAt, updatedAt,
           failureEventRef, classificationRef, currentPlanRef, currentProposalRef, latestEvaluationRef,
           latestPolicyDecisionRef, latestRetryDecisionRef, escalationRef, reviewerDecisionRef, lastEventSequence,
           stopReason, evidenceIndex }

end Dicts

section ReadBack

variable {F : Type} {d : List (Str × JsonValue F)} {key : String}

theorem stateText_str {s default : Str} (h : d.lookup key.toList = some (.str s)) :
    stateText d key default = .ok (nonEmptyOr s default) := by
  unfold stateText
  rw [fieldOr_str h]
  rfl

theorem stateKey_str {s : Str} (h : d.lookup key.toList = some (.str s)) : stateKey d key = .ok s := by
  unfold stateKey
  rw [fieldOf_str h]
  rfl

theorem stateOption_jsonOption {o : Option Str} (h : d.lookup key.toList = some (jsonOption o)) :
    stateOption d key = .ok o := by
  unfold stateOption
  rw [optionalField_jsonOption h]
  rfl

theorem stateInt_int {n : Int} (h : d.lookup key.toList = some (.int n)) : stateInt d key = .ok n := by
  unfold stateInt
  rw [h]

theorem textEntries_toJson (entries : List (Str × Str)) :
    textEntries (F := F) (entries.map fun e => (e.1, .str e.2)) = some entries := by
  induction entries with
  | nil => rfl
  | cons e entries ih =>
    rw [List.map_cons, textEntries, ih]
    rfl

theorem stateIndex_toJson {index : TextDict} (h : d.lookup "evidence_index".toList = some (.obj index.toJson)) :
    stateIndex d = .ok index := by
  unfold stateIndex
  rw [h]
  dsimp only
  rw [TextDict.toJson, textEntries_toJson]
  exact dif_pos index.sorted

theorem schemaField_str {version : Str} (h : d.lookup "schema_version".toList = some (.str version)) :
    schemaField d = if !version.isEmpty && !supportedSchema version then
        .error (.unsupportedSchema ("unsupported durable schema: ".toList ++ version))
      else .ok (readSchema version) := by
  unfold schemaField
  rw [stateText_str h, nonEmptyOr_nil]
  rfl

/-- The state that is read from the dict of a state: empty texts become the defaults. -/
def StateRecord.readBack (created updated : Instant) (s : StateRecord) : StateRecord :=
  { s with
    schemaVersion := readSchema s.schemaVersion
    createdAt := nonEmptyOr s.createdAt created.text
    updatedAt := nonEmptyOr s.updatedAt updated.text }

theorem StateRecord.fromDict_items (created updated : Instant) (s : StateRecord) :
    StateRecord.fromDict (F := F) created updated (dictOf s.items) =
      if !s.schemaVersion.isEmpty && !supportedSchema s.schemaVersion then
        .error (.unsupportedSchema ("unsupported durable schema: ".toList ++ s.schemaVersion))
      else .ok (s.readBack created updated) := by
  have hread : ∀ (key : String) {value : JsonValue F}, s.items.reverse.lookup key.toList = some value →
      (dictOf s.items).lookup key.toList = some value := fun key _ h => (lookup_dictOf _).trans h
  rw [StateRecord.fromDict, schemaField_str (hread "schema_version" rfl),
    stateKey_str (hread "run_id" rfl), stateKey_str (hread "workflow_status" rfl),
    stateOption_jsonOption (hread "technical_status" rfl), stateOption_jsonOption (hread "policy_outcome" rfl),
    stateInt_int (hread "current_attempt" rfl), stateText_str (hread "created_at" rfl),
    stateText_str (hread "updated_at" rfl), stateOption_jsonOption (hread "failure_event_ref" rfl),
    stateOption_jsonOption (hread "classification_ref" rfl), stateOption_jsonOption (hread "current_plan_ref" rfl),
    stateOption_jsonOption (hread "current_proposal_ref" rfl), stateOption_jsonOption (hread "latest_evaluation_ref" rfl),
    stateOption_jsonOption (hread "latest_policy_decision_ref" rfl),
    stateOption_jsonOption (hread "latest_retry_decision_ref" rfl), stateOption_jsonOption (hread "escalation_ref" rfl),
    stateOption_jsonOption (hread "reviewer_decision_ref" rfl), stateInt_int (hread "last_event_sequence" rfl),
    stateOption_jsonOption (hread "stop_reason" rfl), stateIndex_toJson (hread "evidence_index" rfl)]
  split
  · rfl
  · rfl

/-- A state that is read back as it was written: its schema version is supported and current, and it has its time of
creation. -/
structure StateRecord.Kept (s : StateRecord) : Prop where
  named : s.schemaVersion ≠ []
  supported : supportedSchema s.schemaVersion = true
  current : s.schemaVersion ≠ "1.0".toList
  created : s.createdAt ≠ []

/-- The state as `save_run` writes it. -/
def StateRecord.stamp (now : Instant) (s : StateRecord) : StateRecord := { s with updatedAt := now.text }

theorem readSchema_eq_self {version : Str} : readSchema version = version ↔ version ≠ [] ∧ version ≠ "1.0".toList := by
  unfold readSchema
  split
  next h =>
    rw [h]
    decide
  next h => rw [nonEmptyOr_eq_self (by decide), and_iff_left h]

theorem StateRecord.fromDict_stamp_iff (created updated now : Instant) (s : StateRecord) :
    StateRecord.fromDict (F := F) created updated (dictOf (s.stamp now).items) = .ok (s.stamp now) ↔ s.Kept := by
  have hversion : (s.stamp now).schemaVersion = s.schemaVersion := rfl
  have hupdated : nonEmptyOr (s.stamp now).updatedAt updated.text = (s.stamp now).updatedAt :=
    (nonEmptyOr_eq_self updated.nonempty).mpr now.nonempty
  rw [StateRecord.fromDict_items, hversion]
  constructor
  · intro h
    split at h
    · cases h
    next hsupported =>
      have hread := Except.ok.inj h
      obtain ⟨hnamed, hcurrent⟩ := readSchema_eq_self.mp (congrArg StateRecord.schemaVersion hread)
      refine ⟨hnamed, ?_, hcurrent, (nonEmptyOr_eq_self created.nonempty).mp (congrArg StateRecord.createdAt hread)⟩
      by_contra hunsupported
      refine hsupported ?_
      rw [Bool.and_eq_true, Bool.not_eq_true', List.isEmpty_eq_false_iff, Bool.not_eq_true']
      exact ⟨hnamed, eq_false_of_ne_true hunsupported⟩
  · intro h
    have hsupported : ¬ (!s.schemaVersion.isEmpty && !supportedSchema s.schemaVersion) = true := by
      rw [h.supported]
      simp
    have hcreated : nonEmptyOr (s.stamp now).createdAt created.text = (s.stamp now).createdAt :=
      (nonEmptyOr_eq_self created.nonempty).mpr h.created
    rw [if_neg hsupported, StateRecord.readBack, hversion, readSchema_eq_self.mpr ⟨h.named, h.current⟩, hcreated, hupdated]
    rfl

theorem TextDict.toJson_ordered (d : TextDict) : (JsonValue.obj (d.toJson (F := F))).ordered = true := by
  have hkeys : (d.toJson (F := F)).map Prod.fst = d.entries.map Prod.fst := by
    rw [TextDict.toJson, List.map_map]
    rfl
  refine ordered_obj (by rw [hkeys]; exact d.sorted) fun e he => ?_
  obtain ⟨t, -, rfl⟩ := List.mem_map.mp he
  rfl

theorem StateRecord.toDict_ordered (s : StateRecord) : (s.toDict (F := F)).ordered = true := by
  refine ordered_dictOf fun e he => ?_
  simp only [StateRecord.items, List.mem_cons, List.not_mem_nil, or_false] at he
  rcases he with rfl | rfl | rfl | rfl | rfl | rfl | rfl | rfl | rfl | rfl | rfl | rfl | rfl | rfl | rfl | rfl | rfl |
    rfl | rfl | rfl
  all_goals first
    | rfl
    | exact jsonOption_ordered _
    | exact s.evidenceIndex.toJson_ordered

end ReadBack

end FailureOrchestrator
