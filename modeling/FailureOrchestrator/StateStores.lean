import FailureOrchestrator.CommandLine
import FailureOrchestrator.AuditFiles
import FailureOrchestrator.SqlTable
import FailureOrchestrator.StateRecord

namespace FailureOrchestrator

/-- The text of each `state.json`, by the resolved path. -/
abbrev StateFiles := List Str → Option Str

namespace FileStateStore

variable (F : Type) [PyFloat F]

omit [PyFloat F] in
/-- `root / "runs" / run_id / "state.json"`, for an absolute root. -/
def path (root : PosixPath) (runId : Str) : List Str :=
  (((root.child "runs".toList).join runId).child "state.json".toList).resolved

/-- Writes the stamped state; `failure` is the text of an `OSError` that the write raises. -/
def saveRun (root : PosixPath) (now : Instant) (failure : Option Str) (run : StateRecord) :
    Exec StateFiles StateError Unit :=
  match canonicalJson ((run.stamp now).toDict (F := F)) with
  | none => Exec.raise .valueError
  | some text =>
    match failure with
    | some error => Exec.raise (.persistence ("failed to save run state: ".toList ++ error))
    | none => Exec.update fun files => Function.update files (path root run.runId) (some text)

/-- The message of a malformed text ends here without that of the decoder. -/
def loadRun (root : PosixPath) (created updated : Instant) (runId : Str) (files : StateFiles) :
    Except StateError StateRecord :=
  match files (path root runId) with
  | none => .error (.fileNotFound ("run not found: ".toList ++ runId))
  | some text =>
    match JsonValue.loads (F := F) text with
    | none => .error (.persistence ("malformed state.json for ".toList ++ runId))
    | some (.obj d) => StateRecord.fromDict created updated d
    | some _ => .error (.persistence ("state.json must be an object for ".toList ++ runId))

variable {F} {root : PosixPath} {now created updated : Instant} {failure : Option Str} {run : StateRecord} {runId : Str}
  {files files' : StateFiles}

theorem saveRun_ok (h : saveRun F root now failure run files = (.ok (), files')) :
    ∃ text, canonicalJson ((run.stamp now).toDict (F := F)) = some text ∧
      files' = Function.update files (path root run.runId) (some text) := by
  unfold saveRun at h
  generalize canonicalJson ((run.stamp now).toDict (F := F)) = document at h ⊢
  match document, failure, h with
  | some text, none, h => exact ⟨text, rfl, (congrArg Prod.snd h).symm⟩

/-- A saved state is read from its dict, under every id with the same path. -/
theorem loadRun_saveRun (h : saveRun F root now failure run files = (.ok (), files'))
    (hpath : path root runId = path root run.runId) : loadRun F root created updated runId files' =
      StateRecord.fromDict (F := F) created updated (dictOf (run.stamp now).items) := by
  obtain ⟨text, htext, rfl⟩ := saveRun_ok h
  unfold loadRun
  rw [hpath, Function.update_self]
  dsimp only
  rw [loads_canonicalJson (StateRecord.toDict_ordered _) htext]
  rfl

/-- A save, also one that raises, leaves every other state file as it is. -/
theorem saveRun_other {other : StateRecord} (h : path root runId ≠ path root other.runId) :
    (saveRun F root now failure other files).2 (path root runId) = files (path root runId) := by
  unfold saveRun
  generalize canonicalJson ((other.stamp now).toDict (F := F)) = document
  match document, failure with
  | none, _ => rfl
  | some _, some _ => rfl
  | some _, none => exact Function.update_of_ne h _ _

theorem loadRun_other {other : StateRecord} (h : path root runId ≠ path root other.runId) :
    loadRun F root created updated runId (saveRun F root now failure other files).2 =
      loadRun F root created updated runId files := by
  unfold loadRun
  rw [saveRun_other h]

end FileStateStore

/-- A row of the `runs` table. -/
structure RunRow (F : Type) where
  runId : Str
  workflowStatus : Str
  technicalStatus : Option Str
  policyOutcome : Option Str
  currentAttempt : Int
  lastEventSequence : Int
  stopReason : Option Str
  createdAt : Str
  updatedAt : Str
  state : JsonValue F

namespace SqlStateStore

variable {F : Type} [PyFloat F]

omit [PyFloat F] in
/-- `_run_row` with the run's id. -/
def runRow (run : StateRecord) (state : JsonValue F) : RunRow F where
  runId := run.runId
  workflowStatus := run.workflowStatus
  technicalStatus := run.technicalStatus
  policyOutcome := run.policyOutcome
  currentAttempt := run.currentAttempt
  lastEventSequence := run.lastEventSequence
  stopReason := run.stopReason
  createdAt := run.createdAt
  updatedAt := run.updatedAt
  state := state

omit [PyFloat F] in
/-- Updates the rows of the run, or inserts one when there is none. -/
def upsert (row : RunRow F) (rows : List (RunRow F)) : List (RunRow F) :=
  if rows.any fun r => r.runId = row.runId then SqlTable.update (fun r => r.runId = row.runId) (fun _ => row) rows
  else rows ++ [row]

/-- `refuses` names the error with which the database refuses values that its columns do not hold. -/
def saveRun (refuses : RunRow F → Option Str) (now : Instant) (run : StateRecord) :
    Exec (List (RunRow F)) StateError Unit := do
  let state ← Exec.lift ((jsonable ((run.stamp now).toDict (F := F))).mapError fun _ => .valueError)
  let row := runRow (run.stamp now) state
  match refuses row with
  | some error => Exec.raise (.persistence ("failed to save run state: ".toList ++ error))
  | none => Exec.update (upsert row)

omit [PyFloat F] in
def loadRun (created updated : Instant) (runId : Str) (rows : List (RunRow F)) : Except StateError StateRecord :=
  match rows.find? fun r => r.runId = runId with
  | none => .error (.fileNotFound ("run not found: ".toList ++ runId))
  | some row =>
    match row.state with
    | .obj d => (StateRecord.fromDict created updated d).mapError fun
      | .keyError key => .persistence ("malformed stored state for ".toList ++ runId ++ ": missing '".toList ++
          key.toList ++ ['\''])
      | e => e
    | _ => .error (.persistence ("stored state must be an object for ".toList ++ runId))

variable {refuses : RunRow F → Option Str} {now created updated : Instant} {run : StateRecord} {runId : Str}
  {rows rows' : List (RunRow F)}

omit [PyFloat F] in
theorem find_update_self {row : RunRow F} (h : ∃ r ∈ rows, r.runId = row.runId) :
    (SqlTable.update (fun r => r.runId = row.runId) (fun _ => row) rows).find? (fun r => r.runId = row.runId) =
      some row := by
  induction rows with
  | nil =>
    obtain ⟨r, hr, -⟩ := h
    cases hr
  | cons r rows ih =>
    unfold SqlTable.update at ih ⊢
    rw [List.map_cons, List.find?_cons]
    by_cases hr : r.runId = row.runId
    · simp only [hr, decide_true, if_true]
    · simp only [hr, decide_false, Bool.false_eq_true, if_false]
      obtain ⟨old, hold, hid⟩ := h
      rcases List.mem_cons.mp hold with rfl | hold
      · exact absurd hid hr
      · exact ih ⟨old, hold, hid⟩

omit [PyFloat F] in
theorem find_update_ne {row : RunRow F} (h : row.runId ≠ runId) :
    (SqlTable.update (fun r => r.runId = row.runId) (fun _ => row) rows).find? (fun r => r.runId = runId) =
      rows.find? fun r => r.runId = runId := by
  induction rows with
  | nil => rfl
  | cons r rows ih =>
    unfold SqlTable.update at ih ⊢
    rw [List.map_cons, List.find?_cons, List.find?_cons, ih]
    by_cases hr : r.runId = row.runId
    · have hne : ¬ r.runId = runId := by
        rw [hr]
        exact h
      simp only [hr, decide_true, if_true, h, decide_false]
    · simp only [hr, decide_false, Bool.false_eq_true, if_false]

omit [PyFloat F] in
theorem find_upsert_self (row : RunRow F) (rows : List (RunRow F)) :
    (upsert row rows).find? (fun r => r.runId = row.runId) = some row := by
  unfold upsert
  split
  next hany =>
    obtain ⟨r, hr, hid⟩ := List.any_eq_true.mp hany
    exact find_update_self ⟨r, hr, of_decide_eq_true hid⟩
  next hnone =>
    have hmissing : rows.find? (fun r => r.runId = row.runId) = none := by
      rw [List.find?_eq_none]
      exact fun r hr hid => hnone (List.any_eq_true.mpr ⟨r, hr, hid⟩)
    rw [List.find?_append, hmissing]
    simp

omit [PyFloat F] in
theorem find_upsert_ne {row : RunRow F} (h : row.runId ≠ runId) (rows : List (RunRow F)) :
    (upsert row rows).find? (fun r => r.runId = runId) = rows.find? fun r => r.runId = runId := by
  unfold upsert
  split
  · exact find_update_ne h
  · rw [List.find?_append]
    simp [h]

/-- A save writes the row of the stamped state or raises and leaves the table. -/
theorem saveRun_cases (refuses : RunRow F → Option Str) (now : Instant) (run : StateRecord) (rows : List (RunRow F)) :
    saveRun refuses now run rows = (.ok (), upsert (runRow (run.stamp now) (run.stamp now).toDict) rows) ∨
      ∃ e, saveRun refuses now run rows = (.error e, rows) := by
  unfold saveRun
  cases hstate : jsonable ((run.stamp now).toDict (F := F)) with
  | error e => exact .inr ⟨.valueError, rfl⟩
  | ok state =>
    obtain rfl := jsonable_eq (StateRecord.toDict_ordered _) hstate
    cases hrefuses : refuses (runRow (run.stamp now) (run.stamp now).toDict) with
    | some error =>
      refine .inr ⟨.persistence ("failed to save run state: ".toList ++ error), (Exec.bind_of_ok rfl).trans ?_⟩
      rw [hrefuses]
      rfl
    | none =>
      refine .inl ((Exec.bind_of_ok rfl).trans ?_)
      rw [hrefuses]
      rfl

theorem saveRun_ok (h : saveRun refuses now run rows = (.ok (), rows')) :
    rows' = upsert (runRow (run.stamp now) (run.stamp now).toDict) rows := by
  rcases saveRun_cases refuses now run rows with hok | ⟨e, herror⟩
  · exact (congrArg Prod.snd (h.symm.trans hok))
  · have hraised : Except.ok () = Except.error e := congrArg Prod.fst (h.symm.trans herror)
    cases hraised

/-- A saved state is read from its dict. -/
theorem loadRun_saveRun (h : saveRun refuses now run rows = (.ok (), rows')) {s : StateRecord} :
    loadRun created updated run.runId rows' = .ok s ↔
      StateRecord.fromDict (F := F) created updated (dictOf (run.stamp now).items) = .ok s := by
  have hfind := find_upsert_self (runRow (run.stamp now) ((run.stamp now).toDict (F := F))) rows
  have hid : (runRow (run.stamp now) ((run.stamp now).toDict (F := F))).runId = run.runId := rfl
  rw [hid] at hfind
  unfold loadRun
  rw [saveRun_ok h, hfind]
  exact mapError_eq_ok

theorem loadRun_other {other : StateRecord} (h : runId ≠ other.runId) :
    loadRun created updated runId (saveRun refuses now other rows).2 = loadRun created updated runId rows := by
  rcases saveRun_cases refuses now other rows with hok | ⟨e, herror⟩
  · have hne : (runRow (other.stamp now) ((other.stamp now).toDict (F := F))).runId ≠ runId := h.symm
    unfold loadRun
    rw [hok, find_upsert_ne hne]
  · rw [herror]

end SqlStateStore

/-- The state with which `start_run` creates a run. -/
def StateRecord.started (runId workflowStatus : Str) (created updated : Instant) : StateRecord where
  schemaVersion := durableSchema
  runId := runId
  workflowStatus := workflowStatus
  createdAt := created.text
  updatedAt := updated.text

theorem StateRecord.started_kept (runId workflowStatus : Str) (created updated : Instant) :
    (StateRecord.started runId workflowStatus created updated).Kept where
  named := by dsimp only [StateRecord.started]; decide
  supported := by dsimp only [StateRecord.started]; decide
  current := by dsimp only [StateRecord.started]; decide
  created := created.nonempty

/-- Events are read back as they were written exactly when no text of theirs stands for a default; both stores give a
saved state back exactly when it is kept, and a save of another run changes nothing that is loaded of this one. -/
theorem records_kept (F : Type) [PyFloat F] :
    (∀ e : AuditRecord F, AuditRecord.fromDict e.toDict = .ok e ↔ e.schemaVersion ≠ [] ∧ e.Spelled) ∧
    (∀ root now failure s files files', FileStateStore.saveRun F root now failure s files = (.ok (), files') →
      ∀ created updated,
        (FileStateStore.loadRun F root created updated s.runId files' = .ok (s.stamp now) ↔ s.Kept)) ∧
    (∀ refuses now s (rows rows' : List (RunRow F)), SqlStateStore.saveRun refuses now s rows = (.ok (), rows') →
      ∀ created updated, (SqlStateStore.loadRun created updated s.runId rows' = .ok (s.stamp now) ↔ s.Kept)) ∧
    (∀ root now failure runId (other : StateRecord) files created updated,
      FileStateStore.path root runId ≠ FileStateStore.path root other.runId →
        FileStateStore.loadRun F root created updated runId (FileStateStore.saveRun F root now failure other files).2 =
          FileStateStore.loadRun F root created updated runId files) ∧
    (∀ refuses now runId (other : StateRecord) (rows : List (RunRow F)) created updated, runId ≠ other.runId →
      SqlStateStore.loadRun created updated runId (SqlStateStore.saveRun refuses now other rows).2 =
        SqlStateStore.loadRun created updated runId rows) := by
  refine ⟨fun e => ?_, fun root now failure s files files' h created updated => ?_,
    fun refuses now s rows rows' h created updated => ?_, fun _ _ _ _ _ _ _ _ h => FileStateStore.loadRun_other h,
    fun _ _ _ _ _ _ _ h => SqlStateStore.loadRun_other h⟩
  · rw [AuditRecord.fromDict_toDict, Except.ok.injEq]
    exact readBack_eq_iff
  · rw [FileStateStore.loadRun_saveRun h rfl]
    exact StateRecord.fromDict_stamp_iff created updated now s
  · rw [SqlStateStore.loadRun_saveRun h]
    exact StateRecord.fromDict_stamp_iff created updated now s

section Sample

def sampleInstant : Instant := ⟨"2026-01-01T00:00:00+00:00".toList, by decide⟩

def sampleState (runId : Str) : StateRecord := .started runId "RECEIVED".toList sampleInstant sampleInstant

section

variable (F : Type) [PyFloat F]

theorem sampleState_saved (runId : Str) (files : StateFiles) : ∃ files',
    FileStateStore.saveRun F artifacts sampleInstant none (sampleState runId) files = (.ok (), files') := by
  have hdump : (((sampleState runId).stamp sampleInstant).toDict (F := F)).dumpable = true := by
    have hzero : (JsonValue.int (F := F) 0).dumpable = true := by
      dsimp only [JsonValue.dumpable]
      decide +kernel
    refine dumpable_dictOf fun e he => ?_
    simp only [StateRecord.items, List.mem_cons, List.not_mem_nil, or_false] at he
    rcases he with rfl | rfl | rfl | rfl | rfl | rfl | rfl | rfl | rfl | rfl | rfl | rfl | rfl | rfl | rfl | rfl | rfl |
      rfl | rfl | rfl
    all_goals first
      | rfl
      | exact hzero
  unfold FileStateStore.saveRun canonicalJson JsonValue.dumps
  rw [if_pos hdump]
  exact ⟨_, rfl⟩

theorem sampleState_loaded {runId saved : Str} {files files' : StateFiles}
    (hsave : FileStateStore.saveRun F artifacts sampleInstant none (sampleState saved) files = (.ok (), files'))
    (hpath : FileStateStore.path artifacts runId = FileStateStore.path artifacts saved) :
    FileStateStore.loadRun F artifacts sampleInstant sampleInstant runId files' = .ok (sampleState saved) := by
  rw [FileStateStore.loadRun_saveRun hsave hpath]
  exact (StateRecord.fromDict_stamp_iff _ _ sampleInstant (sampleState saved)).mpr (StateRecord.started_kept _ _ _ _)

end

theorem sampleState_kept : ∃ files',
    @FileStateStore.saveRun Unit noFloats artifacts sampleInstant none (sampleState "run-1".toList) (fun _ => none) =
      (.ok (), files') ∧
    @FileStateStore.loadRun Unit noFloats artifacts sampleInstant sampleInstant "run-1".toList files' =
      .ok ((sampleState "run-1".toList).stamp sampleInstant) := by
  obtain ⟨files', hsave⟩ := @sampleState_saved Unit noFloats "run-1".toList fun _ => none
  have hload := (@records_kept Unit noFloats).2.1 _ _ _ _ _ _ hsave sampleInstant sampleInstant
  exact ⟨files', hsave, hload.mpr (StateRecord.started_kept _ _ _ _)⟩

/-- An event without an actor gets one, and the run `./run-1` overwrites the run `run-1`. -/
theorem records_changed :
    (∃ e : AuditRecord Unit, AuditRecord.fromDict e.toDict ≠ .ok e) ∧
    ∃ s other : StateRecord, s.runId ≠ other.runId ∧ s.Kept ∧ other.Kept ∧
      ∃ files, @FileStateStore.loadRun Unit noFloats artifacts sampleInstant sampleInstant s.runId files = .ok s ∧
        @FileStateStore.loadRun Unit noFloats artifacts sampleInstant sampleInstant s.runId
          (@FileStateStore.saveRun Unit noFloats artifacts sampleInstant none other files).2 = .ok other := by
  constructor
  · refine ⟨⟨⟨"evt-1".toList, "run-1".toList, 1, "RUN_CREATED".toList, [], "foundation".toList, none, none, []⟩,
      auditSchema, sampleInstant.text, ⟨[], rfl⟩⟩, ?_⟩
    rw [AuditRecord.fromDict_toDict]
    intro h
    have hactor := congrArg (fun e : AuditRecord Unit => e.actor) (Except.ok.inj h)
    exact absurd hactor (by decide)
  · obtain ⟨files, hfirst⟩ := @sampleState_saved Unit noFloats "run-1".toList fun _ => none
    obtain ⟨files', hsecond⟩ := @sampleState_saved Unit noFloats "./run-1".toList files
    refine ⟨sampleState "run-1".toList, sampleState "./run-1".toList, by decide, StateRecord.started_kept _ _ _ _,
      StateRecord.started_kept _ _ _ _, files, @sampleState_loaded Unit noFloats _ _ _ _ hfirst rfl, ?_⟩
    rw [hsecond]
    exact @sampleState_loaded Unit noFloats _ _ _ _ hsecond (by decide)

end Sample

end FailureOrchestrator
