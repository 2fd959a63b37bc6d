import FailureOrchestrator.Durable
import FailureOrchestrator.JsonDumps

namespace FailureOrchestrator

/-- A dict with its keys in order. -/
structure JsonDict (F : Type) where
  entries : List (Str × JsonValue F)
  ordered : (JsonValue.obj entries).ordered = true

theorem JsonDict.nil_ordered {F : Type} : (JsonValue.obj ([] : List (Str × JsonValue F))).ordered = true := rfl

def auditSchema : Str := "foundation.audit.v1".toList

/-- An audit event with all the data of its record. -/
structure AuditRecord (F : Type) extends AuditEvent where
  schemaVersion : Str := auditSchema
  timestamp : Str
  metadata : JsonDict F

/-- Why a JSON value is no event: `_read_raw` counts the first as a malformed record, the second leaves it as an
exception, and the third are records with fields of types that `to_dict` never writes. -/
inductive RecordError where
  | malformed
  | uncaught
  | unmodelled
  deriving DecidableEq

section

variable {F : Type}

def DurableEvidenceRef.toDict (r : DurableEvidenceRef) : JsonValue F :=
  .obj (dictOf [("kind".toList, .str r.kind.toList), ("ref".toList, .str r.ref),
    ("content_type".toList, .str r.contentType.toList)])

def jsonOption (s : Option Str) : JsonValue F := s.elim .null .str

def AuditRecord.toDict (e : AuditRecord F) : JsonValue F :=
  .obj (dictOf [
    ("schema_version".toList, .str e.schemaVersion),
    ("event_id".toList, .str e.eventId),
    ("run_id".toList, .str e.runId),
    ("sequence".toList, .int e.sequence),
    ("timestamp".toList, .str e.timestamp),
    ("event_type".toList, .str e.eventType),
    ("actor".toList, .str e.actor),
    ("component".toList, .str e.component),
    ("state_before".toList, jsonOption e.stateBefore),
    ("state_after".toList, jsonOption e.stateAfter),
    ("evidence_refs".toList, .arr (e.evidenceRefs.map DurableEvidenceRef.toDict)),
    ("metadata".toList, .obj e.metadata.entries)])

/-- The entries of an event's dict in the order of their keys. -/
def AuditRecord.entries (e : AuditRecord F) : List (Str × JsonValue F) :=
  [("actor".toList, .str e.actor),
    ("component".toList, .str e.component),
    ("event_id".toList, .str e.eventId),
    ("event_type".toList, .str e.eventType),
    ("evidence_refs".toList, .arr (e.evidenceRefs.map DurableEvidenceRef.toDict)),
    ("metadata".toList, .obj e.metadata.entries),
    ("run_id".toList, .str e.runId),
    ("schema_version".toList, .str e.schemaVersion),
    ("sequence".toList, .int e.sequence),
    ("state_after".toList, jsonOption e.stateAfter),
    ("state_before".toList, jsonOption e.stateBefore),
    ("timestamp".toList, .str e.timestamp)]

theorem AuditRecord.toDict_eq (e : AuditRecord F) : e.toDict = .obj e.entries := rfl

/-- `not value`, for values other than floats. -/
def JsonValue.isFalsy : JsonValue F → Bool
  | .null => true
  | .bool b => !b
  | .int n => n = 0
  | .float _ => false
  | .str s => s.isEmpty
  | .arr items => items.isEmpty
  | .obj entries => entries.isEmpty

/-- `str(data.get(key) or default)`. -/
def fieldOr (d : List (Str × JsonValue F)) (key : String) (default : Str) : Except RecordError Str :=
  match d.lookup key.toList with
  | none => .ok default
  | some (.str s) => .ok (if s.isEmpty then default else s)
  | some v => if v.isFalsy then .ok default else .error .unmodelled

/-- `str(data[key])`. -/
def fieldOf (d : List (Str × JsonValue F)) (key : String) : Except RecordError Str :=
  match d.lookup key.toList with
  | none => .error .malformed
  | some (.str s) => .ok s
  | some _ => .error .unmodelled

/-- `data.get(key)` of a text or null. -/
def optionalField (d : List (Str × JsonValue F)) (key : String) : Except RecordError (Option Str) :=
  match d.lookup key.toList with
  | none | some .null => .ok none
  | some (.str s) => .ok (some s)
  | some _ => .error .unmodelled

/-- `int(data["sequence"])`. -/
def sequenceField (d : List (Str × JsonValue F)) : Except RecordError Nat :=
  match d.lookup "sequence".toList with
  | none => .error .malformed
  | some (.int n) => if 0 ≤ n then .ok n.toNat else .error .unmodelled
  | some _ => .error .unmodelled

def DurableEvidenceRef.fromDict : JsonValue F → Except RecordError DurableEvidenceRef
  | .obj d => do
    let kind ← fieldOr d "kind" []
    let ref ← fieldOr d "ref" []
    let contentType ← fieldOr d "content_type" "application/json".toList
    return ⟨String.ofList kind, ref, String.ofList contentType⟩
  | _ => .error .uncaught

def refsField (d : List (Str × JsonValue F)) : Except RecordError (List DurableEvidenceRef) :=
  match d.lookup "evidence_refs".toList with
  | none => .ok []
  | some (.arr items) => items.mapM DurableEvidenceRef.fromDict
  | some v => if v.isFalsy then .ok [] else .error .unmodelled

/-- `dict(data.get("metadata") or {})`. -/
def metadataField (d : List (Str × JsonValue F)) : Except RecordError (JsonDict F) :=
  match d.lookup "metadata".toList with
  | none => .ok ⟨[], JsonDict.nil_ordered⟩
  | some (.obj entries) =>
    if h : (JsonValue.obj entries).ordered = true then .ok ⟨entries, h⟩ else .error .unmodelled
  | some v => if v.isFalsy then .ok ⟨[], JsonDict.nil_ordered⟩ else .error .unmodelled

def AuditRecord.fromDict : JsonValue F → Except RecordError (AuditRecord F)
  | .obj d => do
    let evidenceRefs ← refsField d
    let schemaVersion ← fieldOr d "schema_version" auditSchema
    let eventId ← fieldOf d "event_id"
    let runId ← fieldOf d "run_id"
    let sequence ← sequenceField d
    let timestamp ← fieldOr d "timestamp" []
    let eventType ← fieldOf d "event_type"
    let actor ← fieldOr d "actor" "orchestrator".toList
    let component ← fieldOr d "component" "foundation".toList
    let stateBefore ← optionalField d "state_before"
    let stateAfter ← optionalField d "state_after"
    let metadata ← metadataField d
    return { eventId, runId, sequence, eventType, actor, component, stateBefore, stateAfter, evidenceRefs,
             schemaVersion, timestamp, metadata }
  | _ => .error .uncaught

/-- A text, or the default that an empty text is read as. -/
def nonEmptyOr (s default : Str) : Str := if s.isEmpty then default else s

def DurableEvidenceRef.readBack (r : DurableEvidenceRef) : DurableEvidenceRef :=
  { r with contentType := String.ofList (nonEmptyOr r.contentType.toList "application/json".toList) }

/-- The event that is read from the record of an event: empty texts become the defaults. -/
def AuditRecord.readBack (e : AuditRecord F) : AuditRecord F :=
  { e with
    schemaVersion := nonEmptyOr e.schemaVersion auditSchema
    actor := nonEmptyOr e.actor "orchestrator".toList
    component := nonEmptyOr e.component "foundation".toList
    evidenceRefs := e.evidenceRefs.map DurableEvidenceRef.readBack }

theorem nonEmptyOr_nil (s : Str) : nonEmptyOr s [] = s := by
  unfold nonEmptyOr
  split
  next h => exact (List.isEmpty_iff.mp h).symm
  next => rfl

theorem DurableEvidenceRef.fromDict_toDict (r : DurableEvidenceRef) :
    DurableEvidenceRef.fromDict (F := F) r.toDict = .ok r.readBack := by
  show Except.ok (DurableEvidenceRef.mk (String.ofList (nonEmptyOr r.kind.toList [])) (nonEmptyOr r.ref [])
    (String.ofList (nonEmptyOr r.contentType.toList "application/json".toList))) = _
  rw [nonEmptyOr_nil, nonEmptyOr_nil, String.ofList_toList]
  rfl

theorem mapM_fromDict_toDict (refs : List DurableEvidenceRef) :
    (refs.map DurableEvidenceRef.toDict).mapM (DurableEvidenceRef.fromDict (F := F)) =
      .ok (refs.map DurableEvidenceRef.readBack) := by
  induction refs with
  | nil => rfl
  | cons r refs ih =>
    rw [List.map_cons, List.mapM_cons, DurableEvidenceRef.fromDict_toDict, ih]
    rfl

section Fields

variable {d : List (Str × JsonValue F)} {key : String}

theorem fieldOr_str {s default : Str} (h : d.lookup key.toList = some (.str s)) :
    fieldOr d key default = .ok (nonEmptyOr s default) := by
  unfold fieldOr
  rw [h]
  rfl

theorem fieldOf_str {s : Str} (h : d.lookup key.toList = some (.str s)) : fieldOf d key = .ok s := by
  unfold fieldOf
  rw [h]

theorem optionalField_jsonOption {o : Option Str} (h : d.lookup key.toList = some (jsonOption o)) :
    optionalField d key = .ok o := by
  unfold optionalField
  rw [h]
  cases o with
  | none => rfl
  | some s => rfl

theorem sequenceField_int {n : Nat} (h : d.lookup "sequence".toList = some (.int n)) :
    sequenceField d = .ok n := by
  unfold sequenceField
  rw [h]
  exact (if_pos (Int.natCast_nonneg n)).trans (congrArg Except.ok (Int.toNat_natCast n))

end Fields

theorem AuditRecord.fromDict_toDict (e : AuditRecord F) : AuditRecord.fromDict e.toDict = .ok e.readBack := by
  have hrefs : refsField e.entries = .ok (e.evidenceRefs.map DurableEvidenceRef.readBack) :=
    mapM_fromDict_toDict e.evidenceRefs
  have htimestamp : fieldOr e.entries "timestamp" [] = .ok e.timestamp := by
    rw [fieldOr_str (s := e.timestamp) rfl, nonEmptyOr_nil]
  have hmetadata : metadataField e.entries = .ok e.metadata := dif_pos e.metadata.ordered
  rw [AuditRecord.toDict_eq, AuditRecord.fromDict, hrefs, fieldOr_str (s := e.schemaVersion) rfl,
    fieldOf_str (s := e.eventId) rfl, fieldOf_str (s := e.runId) rfl, sequenceField_int (n := e.sequence) rfl, htimestamp,
    fieldOf_str (s := e.eventType) rfl, fieldOr_str (s := e.actor) rfl, fieldOr_str (s := e.component) rfl,
    optionalField_jsonOption (o := e.stateBefore) rfl, optionalField_jsonOption (o := e.stateAfter) rfl, hmetadata]
  rfl

theorem orderedItems_refs (refs : List DurableEvidenceRef) :
    JsonValue.orderedItems (F := F) (refs.map DurableEvidenceRef.toDict) = true := by
  induction refs with
  | nil => rfl
  | cons r refs ih =>
    have hdict : (DurableEvidenceRef.toDict (F := F) r).ordered = true := rfl
    rw [List.map_cons, JsonValue.orderedItems, hdict, ih]
    rfl

theorem jsonOption_ordered (o : Option Str) : (jsonOption (F := F) o).ordered = true := by
  cases o with
  | none => rfl
  | some s => rfl

theorem AuditRecord.toDict_ordered (e : AuditRecord F) : e.toDict.ordered = true := by
  have hkeys : decide ((e.entries.map Prod.fst).Pairwise (· < ·)) = true := rfl
  rw [AuditRecord.toDict_eq, JsonValue.ordered, hkeys, Bool.true_and]
  simp only [AuditRecord.entries, JsonValue.orderedEntries, JsonValue.ordered, orderedItems_refs, jsonOption_ordered,
    Bool.and_true, Bool.true_and]
  exact e.metadata.ordered

end

end FailureOrchestrator
