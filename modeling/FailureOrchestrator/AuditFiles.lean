import FailureOrchestrator.AuditRecord
import FailureOrchestrator.CommandLine
import FailureOrchestrator.Exec
import Mathlib.Data.List.Sort
import Mathlib.Logic.Function.Basic
import Mathlib.Logic.Relation

namespace FailureOrchestrator

/-- The exceptions of the audit stores; `unmodelled` stands for records with fields of types that no store writes. -/
inductive StoreError where
  | persistence (message : Str)
  | unsupportedSchema (version : Str)
  | valueError
  | attributeError
  | osError
  | unmodelled
  deriving DecidableEq

/-- The files by their resolved paths, the absolute root of the stores, and the event ids that each store instance has seen
of each run. -/
structure AuditFiles where
  root : PosixPath
  content : List Str → Option Str
  seen : Nat → Str → List Str

namespace FileAuditStore

/-- `root / "runs" / run_id / "events.jsonl"` -/
def path (root : PosixPath) (runId : Str) : PosixPath :=
  ((root.child "runs".toList).join runId).child "events.jsonl".toList

def nameBytes (name : Str) : Nat := (name.map fun c => c.utf8Size).sum

/-- The file system looks up no name of more than 255 bytes and no path of 4096 bytes or more. -/
def tooLong (path : PosixPath) : Bool :=
  (path.parts.any fun part => 255 < nameBytes part) || 4096 ≤ (path.parts.map fun part => nameBytes part + 1).sum

end FileAuditStore

namespace AuditFiles

open FileAuditStore

def empty (root : PosixPath) : AuditFiles := ⟨root, fun _ => none, fun _ _ => []⟩

/-- The `events.jsonl` of a run. -/
def file (s : AuditFiles) (runId : Str) : Option Str := s.content (path s.root runId).resolved

/-- Writes at the end of a run's file. -/
def write (s : AuditFiles) (runId text : Str) : AuditFiles :=
  { s with content := Function.update s.content (path s.root runId).resolved (some ((s.file runId).getD [] ++ text)) }

def remember (s : AuditFiles) (i : Nat) (runId : Str) (ids : List Str) : AuditFiles :=
  { s with seen := fun j r => if j = i ∧ r = runId then s.seen i runId ++ ids else s.seen j r }

/-- Instance `i` becomes a new instance. -/
def forget (s : AuditFiles) (i : Nat) : AuditFiles :=
  { s with seen := fun j r => if j = i then [] else s.seen j r }

end AuditFiles

section

variable {F : Type} [PyFloat F]

def decodeLine (line : Str) : Except RecordError (AuditRecord F) :=
  (JsonValue.loads line).elim (.error .malformed) AuditRecord.fromDict

/-- The events of the lines, from the line number `idx` on, and whether the last line is malformed. -/
def readRecords (runId : Str) : Nat → List Str → Except StoreError (List (AuditRecord F) × Bool)
  | _, [] => .ok ([], false)
  | idx, line :: rest =>
    if (strip line).isEmpty then readRecords runId (idx + 1) rest
    else
      match decodeLine line with
      | .ok e => do
        let (events, trailing) ← readRecords runId (idx + 1) rest
        return (e :: events, trailing)
      | .error .malformed =>
        if rest.isEmpty then .ok ([], true)
        else .error (.persistence ("corrupt audit event at line ".toList ++ natStr idx ++ " for ".toList ++ runId))
      | .error .uncaught => .error .attributeError
      | .error .unmodelled => .error .unmodelled

/-- The text that `append` writes in front of the newline. -/
def AuditRecord.line (e : AuditRecord F) : Str := e.toDict.write plainStyle 0

namespace FileAuditStore

def readRaw (runId : Str) : Option Str → Except StoreError (List (AuditRecord F) × Bool)
  | none => .ok ([], false)
  | some text => readRecords runId 1 (splitlines text)

def readEventsTolerant (s : AuditFiles) (runId : Str) : Except StoreError (List (AuditRecord F) × Bool) :=
  if tooLong (path s.root runId) then .error .osError else readRaw runId (s.file runId)

def readEvents (s : AuditFiles) (runId : Str) : Except StoreError (List (AuditRecord F)) := do
  let (events, trailing) ← readEventsTolerant s runId
  if trailing then
    .error (.persistence ("malformed trailing audit record in events.jsonl for ".toList ++ runId))
  else return events

omit [PyFloat F] in
/-- `events[-1].sequence if events else 0`. -/
def lastSequence (events : List (AuditRecord F)) : Nat := events.getLast?.elim 0 (·.sequence)

variable (F) in
def latestSequence (s : AuditFiles) (runId : Str) : Except StoreError Nat := do
  let (events, _) ← readEventsTolerant (F := F) s runId
  return lastSequence events

variable (F) in
/-- Instance `i` takes the ids of a run from the file when it knows none. -/
def loadIds (i : Nat) (runId : Str) : Exec AuditFiles StoreError Unit := do
  let s ← Exec.read
  if (s.seen i runId).isEmpty then
    let existing ← Exec.lift (readEventsTolerant (F := F) s runId)
    Exec.update fun s => s.remember i runId (existing.1.map (·.eventId))
  else pure ()

/-- The text to write to a path, which must not have a null byte. -/
def recordLine (path : PosixPath) (e : AuditRecord F) : Except StoreError Str :=
  if path.parts.any fun part => part.contains '\x00' then .error .valueError
  else (e.toDict.dumps plainStyle).elim (.error .valueError) .ok

/-- The checks of `append` by instance `i` and the text it goes on to write. -/
def prepare (i : Nat) (e : AuditRecord F) : Exec AuditFiles StoreError Str := do
  if e.schemaVersion ≠ auditSchema then Exec.raise (.unsupportedSchema e.schemaVersion)
  else
    loadIds F i e.runId
    let s ← Exec.read
    if e.eventId ∈ s.seen i e.runId then
      Exec.raise (.persistence ("duplicate event_id: ".toList ++ e.eventId))
    else
      let last ← Exec.lift (latestSequence F s e.runId)
      if e.sequence ≠ last + 1 then
        Exec.raise (.persistence ("non-monotonic sequence: expected ".toList ++ natStr (last + 1) ++ ", got ".toList ++
          natStr e.sequence))
      else Exec.lift (recordLine (path s.root e.runId) e)

def append (i : Nat) (e : AuditRecord F) : Exec AuditFiles StoreError Unit := do
  let line ← prepare i e
  Exec.update fun s => s.write e.runId (line ++ ['\n'])
  Exec.update fun s => s.remember i e.runId [e.eventId]

/-- An `append` that is cut off when `n` characters of its record are written. -/
def appendTorn (i : Nat) (e : AuditRecord F) (n : Nat) : Exec AuditFiles StoreError Unit := do
  let line ← prepare i e
  Exec.update fun s => s.write e.runId (line.take n)

end FileAuditStore

variable (F) in
/-- What can happen to the logs: a call, a call that is cut off, and a new store in place of an old one. -/
inductive AuditStep : AuditFiles → AuditFiles → Prop where
  | append (s : AuditFiles) (i : Nat) (e : AuditRecord F) : AuditStep s (FileAuditStore.append i e s).2
  | torn (s : AuditFiles) (i : Nat) (e : AuditRecord F) (n : Nat) : AuditStep s (FileAuditStore.appendTorn i e n s).2
  | reopen (s : AuditFiles) (i : Nat) : AuditStep s (s.forget i)

variable (F) in
def AuditFiles.Reachable (s : AuditFiles) : Prop :=
  ∃ root, Relation.ReflTransGen (AuditStep F) (AuditFiles.empty root) s

end

/-- The root of the samples. -/
def artifacts : PosixPath := PosixPath.ofStr "/artifacts".toList

/-- A row of the `audit_events` table. -/
structure AuditRow (F : Type) where
  runId : Str
  sequence : Nat
  eventId : Str
  eventType : Str
  timestamp : Str
  actor : Str
  component : Str
  stateBefore : Option Str
  stateAfter : Option Str
  payload : JsonValue F

section

variable {F : Type} [PyFloat F]

/-- `_jsonable(value)`. -/
def jsonable (v : JsonValue F) : Except StoreError (JsonValue F) :=
  match v.dumps indentedStyle with
  | none => .error .valueError
  | some text => (JsonValue.loads (text ++ ['\n'])).elim (.error .valueError) .ok

theorem jsonable_ok {v : JsonValue F} (hordered : v.ordered = true) (hdump : v.dumpable = true) : jsonable v = .ok v := by
  have hblank : Blank ['\n'] := by decide
  unfold jsonable JsonValue.dumps
  rw [if_pos hdump]
  dsimp only
  rw [loads_write_blank indentedStyle_valid hordered hdump hblank]
  rfl

theorem jsonable_error {v : JsonValue F} (hdump : ¬ v.dumpable = true) : jsonable v = .error .valueError := by
  unfold jsonable JsonValue.dumps
  rw [if_neg hdump]

theorem jsonable_eq {v state : JsonValue F} (hordered : v.ordered = true) (h : jsonable v = .ok state) : state = v := by
  by_cases hdump : v.dumpable = true
  · rw [jsonable_ok hordered hdump] at h
    exact (Except.ok.inj h).symm
  · rw [jsonable_error hdump] at h
    cases h

omit [PyFloat F] in
def AuditRecord.row (e : AuditRecord F) (payload : JsonValue F) : AuditRow F where
  runId := e.runId
  sequence := e.sequence
  eventId := e.eventId
  eventType := e.eventType
  timestamp := e.timestamp
  actor := e.actor
  component := e.component
  stateBefore := e.stateBefore
  stateAfter := e.stateAfter
  payload := payload

namespace SqlAuditStore

omit [PyFloat F] in
/-- `select max(sequence) where run_id = …`, with 0 for no row. -/
def latest (rows : List (AuditRow F)) (runId : Str) : Nat :=
  ((rows.filter fun r => r.runId = runId).map (·.sequence)).foldl max 0

omit [PyFloat F] in
/-- Inserts a row. `refuses` names the error with which the database refuses values that its columns do not hold. -/
def insert (refuses : AuditRow F → Option Str) (row : AuditRow F) : Exec (List (AuditRow F)) StoreError Unit := do
  let rows ← Exec.read
  if ∃ r ∈ rows, r.eventId = row.eventId ∨ (r.runId = row.runId ∧ r.sequence = row.sequence) then
    Exec.raise (.persistence ("audit append conflict for ".toList ++ row.runId ++ " sequence ".toList ++
      natStr row.sequence))
  else
    match refuses row with
    | some error => Exec.raise (.persistence ("failed to append audit event: ".toList ++ error))
    | none => Exec.update fun rows => rows ++ [row]

def append (refuses : AuditRow F → Option Str) (e : AuditRecord F) : Exec (List (AuditRow F)) StoreError Unit := do
  if e.schemaVersion ≠ auditSchema then Exec.raise (.unsupportedSchema e.schemaVersion)
  else
    let rows ← Exec.read
    if ∃ r ∈ rows, r.eventId = e.eventId then
      Exec.raise (.persistence ("duplicate event_id: ".toList ++ e.eventId))
    else if e.sequence ≠ latest rows e.runId + 1 then
      Exec.raise (.persistence ("non-monotonic sequence: expected ".toList ++ natStr (latest rows e.runId + 1) ++
        ", got ".toList ++ natStr e.sequence))
    else
      let payload ← Exec.lift (jsonable e.toDict)
      insert refuses (e.row payload)

omit [PyFloat F] in
def decodeRow (runId : Str) (row : AuditRow F) : Except StoreError (AuditRecord F) :=
  match AuditRecord.fromDict row.payload with
  | .ok e => .ok e
  | .error .malformed => .error (.persistence ("corrupt audit event for ".toList ++ runId))
  | .error .uncaught => .error .attributeError
  | .error .unmodelled => .error .unmodelled

omit [PyFloat F] in
def readEvents (rows : List (AuditRow F)) (runId : Str) : Except StoreError (List (AuditRecord F)) :=
  ((rows.filter fun r => r.runId = runId).insertionSort fun r r' => r.sequence ≤ r'.sequence).mapM (decodeRow runId)

end SqlAuditStore

end

end FailureOrchestrator
