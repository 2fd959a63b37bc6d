import FailureOrchestrator.AuditRecord
import FailureOrchestrator.Exec
import FailureOrchestrator.HashChain
import FailureOrchestrator.JsonDicts
import FailureOrchestrator.RecordLines

namespace FailureOrchestrator

namespace HashChainedAuditLog

open Regex

/-! ## Redaction -/

/-- `_SENSITIVE_KEYS`. -/
def sensitiveKeys : Regex :=
  .alt (cat [ilit "api", opt (oneOf "_-"), ilit "key"]) (ilits ["authorization", "cookie", "password", "secret", "token"])

def bearerToken : Regex :=
  cat [ilit "bearer", spaces1, some1 (.cls fun c => isFoldedLetter c || c.isDigit || "._~+/=-".toList.contains c)]

def secretAssignment : Regex :=
  cat [.grp 1 (.alt (cat [ilit "api", opt (oneOf "_-"), ilit "key"]) (ilits ["password", "secret", "token"])),
    .grp 2 (cat [spaces, oneOf ":=", spaces]), some1 (.cls fun c => !(isSpace c || ",;".toList.contains c))]

def redactedMark : Str := "[REDACTED]".toList

section

variable {F : Type} [UnicodeData]

def redactText (text : Str) : Str :=
  sub secretAssignment (fun _ m => (m.group 1).getD [] ++ (m.group 2).getD [] ++ redactedMark)
    (sub bearerToken (fun _ _ => "Bearer ".toList ++ redactedMark) text)

mutual

def redact : JsonValue F → JsonValue F
  | .obj entries => .obj (redactEntries entries)
  | .arr items => .arr (redactItems items)
  | .str s => .str (redactText s)
  | v => v

def redactItems : List (JsonValue F) → List (JsonValue F)
  | [] => []
  | x :: xs => redact x :: redactItems xs

def redactEntries : List (Str × JsonValue F) → List (Str × JsonValue F)
  | [] => []
  | (key, x) :: xs => (key, if found sensitiveKeys key then .str redactedMark else redact x) :: redactEntries xs

end

mutual

theorem dumpable_redact : ∀ v : JsonValue F, v.dumpable = true → (redact v).dumpable = true := by
  intro v hv
  match v with
  | .null | .bool _ | .float _ | .str _ => rfl
  | .int n => exact hv
  | .arr items => exact dumpable_redactItems items hv
  | .obj entries => exact dumpable_redactEntries entries hv

theorem dumpable_redactItems : ∀ items : List (JsonValue F), JsonValue.dumpableItems items = true →
    JsonValue.dumpableItems (redactItems items) = true := by
  intro items hitems
  match items with
  | [] => rfl
  | x :: xs =>
    obtain ⟨hx, hxs⟩ := Bool.and_eq_true_iff.mp hitems
    rw [redactItems, JsonValue.dumpableItems, dumpable_redact x hx, dumpable_redactItems xs hxs]
    rfl

theorem dumpable_redactEntries : ∀ entries : List (Str × JsonValue F), JsonValue.dumpableEntries entries = true →
    JsonValue.dumpableEntries (redactEntries entries) = true := by
  intro entries hentries
  match entries with
  | [] => rfl
  | (key, x) :: xs =>
    obtain ⟨hx, hxs⟩ := Bool.and_eq_true_iff.mp hentries
    rw [redactEntries, JsonValue.dumpableEntries, dumpable_redactEntries xs hxs, Bool.and_true]
    split
    · rfl
    · exact dumpable_redact x hx

end

/-! ## Records -/

/-- A call with the time and the new id that it reads. -/
structure AppendCall (F : Type) where
  event : Str
  payload : List (Str × JsonValue F)
  correlationId : Option Str := none
  timestamp : Str
  eventId : Str

/-- The record without its hash. -/
def AppendCall.record (c : AppendCall F) (prevHash : JsonValue F) : List (Str × JsonValue F) :=
  [("ts".toList, .str c.timestamp),
    ("timestamp".toList, .str c.timestamp),
    ("event_id".toList, .str c.eventId),
    ("correlation_id".toList, jsonOption c.correlationId),
    ("event".toList, .str c.event),
    ("event_type".toList, .str c.event),
    ("payload".toList, redact (.obj c.payload)),
    ("prev_hash".toList, prevHash)]

inductive AuditLogError where
  | indexError
  | valueError
  | keyError
  | typeError
  deriving DecidableEq, Repr

variable [PyFloat F]

omit [UnicodeData] in
/-- `json.dumps(value, sort_keys=True)`. -/
def dumpsSorted (style : JsonStyle) (v : JsonValue F) : Except AuditLogError Str :=
  match v.sorted.dumps style with
  | some text => .ok text
  | none => .error .valueError

def genesis : Str := "GENESIS".toList

omit [UnicodeData] in
/-- `_last_hash()` of a file; `none` is a file that does not exist. -/
def lastHash : Option Str → Except AuditLogError (JsonValue F)
  | none => .ok (.str genesis)
  | some text =>
    if text.isEmpty then .ok (.str genesis)
    else
      match (splitlines (strip (universalNewlines text))).getLast? with
      | none => .error .indexError
      | some line =>
        match JsonValue.loads line with
        | none => .error .valueError
        | some (.obj entries) =>
          match entries.lookup "hash".toList with
          | none => .error .keyError
          | some value => .ok value
        | some _ => .error .typeError

/-- An instance holds nothing but the path, so the calls of all instances go to one file. -/
def append (sha256 : Str → Str) (c : AppendCall F) :
    Exec (Option Str) AuditLogError (List (Str × JsonValue F)) := do
  let file ← Exec.read
  let prevHash ← Exec.lift (lastHash file)
  let record := c.record prevHash
  let canonical ← Exec.lift (dumpsSorted compactStyle (.obj record))
  let stored := record ++ [("hash".toList, .str (sha256 canonical))]
  let line ← Exec.lift (dumpsSorted plainStyle (.obj stored))
  Exec.update fun file => some (file.getD [] ++ (line ++ ['\n']))
  pure stored

/-- The file after calls one after the other; each of them may raise. -/
def appends (sha256 : Str → Str) (calls : List (AppendCall F)) (file : Option Str) : Option Str :=
  calls.foldl (fun file c => (append sha256 c file).2) file

/-! ## Verification -/

omit [UnicodeData] [PyFloat F] in
/-- The lines of the stored log. -/
def storedLines (file : Option Str) : List Str := splitlines (universalNewlines (file.getD []))

variable (F) in
omit [UnicodeData] in
/-- What a line says: its `hash`, its `prev_hash`, and the canonical text of the record without its `hash`. -/
def readLine (line : Str) : Option (ChainLink Str Str) :=
  match JsonValue.loads (F := F) line with
  | some (.obj entries) =>
    match entries.lookup "hash".toList, entries.lookup "prev_hash".toList,
      dumpsSorted compactStyle (.obj (entries.filter fun e => e.1 ≠ "hash".toList)) with
    | some (.str stored), some (.str prev), .ok body => some ⟨prev, body, stored⟩
    | _, _, _ => none
  | _ => none

end

end HashChainedAuditLog

end FailureOrchestrator
