import FailureOrchestrator.AuditAdmission
import FailureOrchestrator.AuditFiles

namespace FailureOrchestrator

section

variable {F : Type} [PyFloat F] {s : AuditFiles} {rows : List (AuditRow F)} {events : Str → List (AuditRecord F)}

/-- A run id that is the name of a directory under `runs`, with a path that the file system takes. -/
structure RunName (root : PosixPath) (runId : Str) : Prop extends PathStep runId where
  short : FileAuditStore.tooLong (FileAuditStore.path root runId) = false
  clean : (FileAuditStore.path root runId).parts.any (fun part => part.contains '\x00') = false

theorem RunName.path_resolved {root : PosixPath} {runId : Str} (h : RunName root runId) :
    (FileAuditStore.path root runId).resolved = (root.child "runs".toList).resolved ++ [runId] ++ ["events.jsonl".toList] := by
  unfold FileAuditStore.path
  rw [h.join]
  show (PosixPath.mk _ (_ ++ ["events.jsonl".toList])).resolved = _
  rw [resolved_snoc _ _ (by decide), resolved_snoc _ _ h.dots]

/-- Runs with different names have different files. -/
theorem RunName.path_inj {root : PosixPath} {runId other : Str} (h : RunName root runId) (h' : RunName root other)
    (hpath : (FileAuditStore.path root runId).resolved = (FileAuditStore.path root other).resolved) : runId = other := by
  rw [h.path_resolved, h'.path_resolved] at hpath
  exact List.singleton_inj.mp (List.append_cancel_left (List.append_cancel_right hpath))

/-- A call of `append` through one of the store instances. -/
structure AppendCall (F : Type) where
  store : Nat
  event : AuditRecord F

/-- Both stores hold the given events of each run that has a name. -/
structure Mirrors (s : AuditFiles) (rows : List (AuditRow F)) (events : Str → List (AuditRecord F)) : Prop where
  text : ∀ runId, RunName s.root runId → s.text runId = unlines ((events runId).map AuditRecord.line)
  named : ∀ runId, events runId ≠ [] → RunName s.root runId
  stored : ∀ runId, (rows.filter fun r => r.runId = runId) = (events runId).map fun e => e.row e.toDict
  dumpable : ∀ runId, ∀ e ∈ events runId, e.toDict.dumpable = true
  sequence : ∀ runId, (events runId).map (·.sequence) = List.range' 1 (events runId).length
  seen : ∀ i runId, ∀ eventId ∈ s.seen i runId, eventId ∈ (events runId).map (·.eventId)

namespace Mirrors

theorem empty (root : PosixPath) : Mirrors (F := F) (AuditFiles.empty root) [] fun _ => [] where
  text _ _ := rfl
  named _ h := absurd rfl h
  stored _ := rfl
  dumpable _ _ he := nomatch he
  sequence _ := rfl
  seen _ _ _ h := nomatch h

theorem logged_lines {es : List (AuditRecord F)} (h : ∀ e ∈ es, e.toDict.dumpable = true) :
    Logged F (es.map AuditRecord.line) [] := by
  refine ⟨?_, .inl rfl⟩
  intro l hl
  obtain ⟨e, he, rfl⟩ := List.mem_map.mp hl
  exact ⟨[e.line], by simp, by simp, fun p hp => by rw [List.mem_singleton.mp hp]; exact recordPiece_line (h e he)⟩

theorem decoded_lines {es : List (AuditRecord F)} (h : ∀ e ∈ es, e.toDict.dumpable = true) :
    Decoded F (es.map AuditRecord.line) (es.map AuditRecord.readBack) := by
  induction es with
  | nil => exact .nil
  | cons e es ih =>
    have hline := (logged_lines h).lines e.line (by simp)
    exact .cons ⟨hline.not_blank, decodeLine_line (h e List.mem_cons_self)⟩
      (ih fun d hd => h d (List.mem_cons_of_mem e hd))

theorem read_eq (h : Mirrors s rows events) {runId : Str} (hname : RunName s.root runId) :
    FileAuditStore.readEventsTolerant s runId = .ok ((events runId).map AuditRecord.readBack, false) := by
  rw [FileAuditStore.readRaw_text hname.short, h.text runId hname, ← List.append_nil (unlines _),
    splitlines_logged (logged_lines (h.dumpable runId)), if_pos rfl, List.append_nil,
    readRecords_decoded (decoded_lines (h.dumpable runId))]

theorem readEvents_eq (h : Mirrors s rows events) {runId : Str} (hname : RunName s.root runId) :
    FileAuditStore.readEvents s runId = .ok ((events runId).map AuditRecord.readBack) := by
  unfold FileAuditStore.readEvents
  rw [h.read_eq hname]
  rfl

theorem lastSequence_eq (h : Mirrors s rows events) (runId : Str) :
    FileAuditStore.lastSequence ((events runId).map AuditRecord.readBack) = (events runId).length := by
  have hsequence := h.sequence runId
  unfold FileAuditStore.lastSequence
  rcases List.eq_nil_or_concat (events runId) with hnil | ⟨init, e, hlast⟩
  · rw [hnil]
    rfl
  · rw [List.concat_eq_append] at hlast
    rw [hlast, List.map_append, List.length_append, List.length_singleton, List.range'_concat] at hsequence
    have he := List.singleton_inj.mp (List.append_inj_right' hsequence rfl)
    rw [hlast, List.map_append, List.map_singleton, List.getLast?_concat]
    dsimp only at he
    show e.sequence = _
    rw [he, List.length_append, List.length_singleton]
    omega

theorem latestSequence_eq (h : Mirrors s rows events) {runId : Str} (hname : RunName s.root runId) :
    FileAuditStore.latestSequence F s runId = .ok (events runId).length := by
  unfold FileAuditStore.latestSequence
  rw [h.read_eq hname]
  exact congrArg Except.ok (h.lastSequence_eq runId)

theorem foldl_max_range' (n : Nat) : (List.range' 1 n).foldl max 0 = n := by
  induction n with
  | zero => rfl
  | succ n ih =>
    rw [List.range'_concat, List.foldl_append, ih]
    show max n (1 + 1 * n) = n + 1
    omega

theorem latest_eq (h : Mirrors s rows events) (runId : Str) :
    SqlAuditStore.latest rows runId = (events runId).length := by
  unfold SqlAuditStore.latest
  rw [h.stored runId, List.map_map]
  have hsequence : (events runId).map ((·.sequence) ∘ fun e => e.row e.toDict) = List.range' 1 (events runId).length :=
    h.sequence runId
  rw [hsequence, foldl_max_range']

omit [PyFloat F] in
theorem decodeRow_row (runId : Str) (e : AuditRecord F) :
    SqlAuditStore.decodeRow runId (e.row e.toDict) = .ok e.readBack := by
  have hpayload : (e.row e.toDict).payload = e.toDict := rfl
  unfold SqlAuditStore.decodeRow
  rw [hpayload, e.fromDict_toDict]

omit [PyFloat F] in
theorem mapM_decodeRow (runId : Str) (es : List (AuditRecord F)) :
    (es.map fun e => e.row e.toDict).mapM (SqlAuditStore.decodeRow runId) = .ok (es.map AuditRecord.readBack) := by
  induction es with
  | nil => rfl
  | cons e es ih =>
    rw [List.map_cons, List.mapM_cons, decodeRow_row, ih]
    rfl

/-- The rows of a run stand in the table in the order of their sequences. -/
theorem sorted (h : Mirrors s rows events) (runId : Str) :
    (rows.filter fun r => r.runId = runId).Pairwise fun r r' => r.sequence ≤ r'.sequence := by
  have hsequence : (rows.filter fun r => r.runId = runId).map (·.sequence) = List.range' 1 (events runId).length := by
    rw [h.stored runId, List.map_map]
    exact h.sequence runId
  have hrange : (List.range' 1 (events runId).length).Pairwise (· < ·) := List.pairwise_lt_range'
  rw [← hsequence, List.pairwise_map] at hrange
  exact hrange.imp fun hlt => Nat.le_of_lt hlt

theorem sqlReadEvents_eq (h : Mirrors s rows events) (runId : Str) :
    SqlAuditStore.readEvents rows runId = .ok ((events runId).map AuditRecord.readBack) := by
  unfold SqlAuditStore.readEvents
  rw [List.Pairwise.insertionSort_eq (h.sorted runId), h.stored runId, mapM_decodeRow]

/-- An id is in the table exactly when some run has it. -/
theorem mem_rows (h : Mirrors s rows events) (eventId : Str) :
    (∃ r ∈ rows, r.eventId = eventId) ↔ ∃ runId, eventId ∈ (events runId).map (·.eventId) := by
  constructor
  · rintro ⟨r, hr, rfl⟩
    have hmem : r ∈ rows.filter fun r' => r'.runId = r.runId := List.mem_filter.mpr ⟨hr, by simp⟩
    rw [h.stored r.runId] at hmem
    obtain ⟨e, he, hrow⟩ := List.mem_map.mp hmem
    exact ⟨r.runId, List.mem_map.mpr ⟨e, he, by rw [← hrow]; rfl⟩⟩
  · rintro ⟨runId, hid⟩
    obtain ⟨e, he, rfl⟩ := List.mem_map.mp hid
    have hmem : e.row e.toDict ∈ rows.filter fun r => r.runId = runId := by
      rw [h.stored runId]
      exact List.mem_map_of_mem he
    exact ⟨_, (List.mem_filter.mp hmem).1, rfl⟩

end Mirrors

end

section

variable {F : Type} [PyFloat F] {refuses : AuditRow F → Option Str} {s : AuditFiles} {rows : List (AuditRow F)}
  {events : Str → List (AuditRecord F)} {i : Nat} {e : AuditRecord F}

open FileAuditStore

variable (F) in
/-- The events that are read of a run. -/
def storedEvents (s : AuditFiles) (runId : Str) : List (AuditRecord F) :=
  (readEventsTolerant s runId).toOption.elim [] Prod.fst

variable (F) in
def storedIds (s : AuditFiles) (runId : Str) : List Str := (storedEvents F s runId).map (·.eventId)

/-- The event is the next one of its run and can be written. -/
structure NextEvent (s : AuditFiles) (e : AuditRecord F) : Prop where
  schema : e.schemaVersion = auditSchema
  sequence : e.sequence = lastSequence (storedEvents F s e.runId) + 1
  dumpable : e.toDict.dumpable = true

/-- An id that is stored for any run is one that the calling instance compares with, and the database takes the values of
an event with a new id. -/
structure SharedKnowledge (refuses : AuditRow F → Option Str) (s : AuditFiles) (c : AppendCall F) : Prop where
  known : ∀ runId, RunName s.root runId → c.event.eventId ∈ storedIds F s runId →
    c.event.eventId ∈ known s c.store c.event.runId (storedEvents F s c.event.runId)
  taken : (∀ runId, RunName s.root runId → c.event.eventId ∉ storedIds F s runId) →
    refuses (c.event.row c.event.toDict) = none

namespace Mirrors

theorem storedEvents_eq (h : Mirrors s rows events) {runId : Str} (hname : RunName s.root runId) :
    storedEvents F s runId = (events runId).map AuditRecord.readBack := by
  unfold storedEvents
  rw [h.read_eq hname]
  rfl

omit [PyFloat F] in
theorem map_eventId_readBack (es : List (AuditRecord F)) :
    (es.map AuditRecord.readBack).map (·.eventId) = es.map (·.eventId) := by
  rw [List.map_map]
  rfl

theorem storedIds_eq (h : Mirrors s rows events) {runId : Str} (hname : RunName s.root runId) :
    storedIds F s runId = (events runId).map (·.eventId) := by
  unfold storedIds
  rw [h.storedEvents_eq hname, map_eventId_readBack]

/-- An instance knows of no id that the run does not have. -/
theorem known_stored (h : Mirrors s rows events) {runId eventId : Str} (hname : RunName s.root runId)
    (hknown : eventId ∈ known s i runId (storedEvents F s runId)) : eventId ∈ storedIds F s runId := by
  unfold known at hknown
  split at hknown
  next => exact hknown
  next =>
    rw [h.storedIds_eq hname]
    exact h.seen i runId eventId hknown

theorem after_load (h : Mirrors s rows events) (i : Nat) {runId : Str} (hname : RunName s.root runId) :
    Mirrors (FileAuditStore.loaded s i runId (storedEvents F s runId)) rows events where
  text other hother := by
    rw [loaded_root] at hother
    rw [← h.text other hother]
    unfold AuditFiles.text
    rw [loaded_file]
  named other hother := by
    rw [loaded_root]
    exact h.named other hother
  stored := h.stored
  dumpable := h.dumpable
  sequence := h.sequence
  seen j other eventId hid := by
    by_cases hsame : j = i ∧ other = runId
    · obtain ⟨rfl, rfl⟩ := hsame
      rw [loaded_seen] at hid
      rw [← h.storedIds_eq hname]
      exact h.known_stored hname hid
    · refine h.seen j other eventId ?_
      unfold FileAuditStore.loaded at hid
      split at hid
      next =>
        rw [AuditFiles.remember] at hid
        dsimp only at hid
        rw [if_neg hsame] at hid
        exact hid
      next => exact hid

theorem read_stored (h : Mirrors s rows events) {runId : Str} (hname : RunName s.root runId) :
    readEventsTolerant s runId = .ok (storedEvents F s runId, false) := by
  rw [h.storedEvents_eq hname]
  exact h.read_eq hname

/-- The calls that the file store accepts. -/
theorem file_ok (h : Mirrors s rows events) (hname : RunName s.root e.runId) (hnext : NextEvent s e)
    (hnew : e.eventId ∉ known s i e.runId (storedEvents F s e.runId)) : append i e s =
      (.ok (), ((FileAuditStore.loaded s i e.runId (storedEvents F s e.runId)).write e.runId (e.line ++ ['\n'])).remember i
        e.runId [e.eventId]) := by
  have hprepare := prepare_eq (i := i) (h.read_stored hname)
  rw [if_neg (not_not.mpr hnext.schema), if_neg hnew, if_neg (not_not.mpr hnext.sequence)] at hprepare
  unfold recordLine JsonValue.dumps at hprepare
  rw [if_neg (Bool.eq_false_iff.mp hname.clean), if_pos hnext.dumpable] at hprepare
  exact append_ok hprepare

/-- The calls that the file store rejects leave the files. -/
theorem file_error (h : Mirrors s rows events) (hname : RunName s.root e.runId)
    (hnot : ¬ (NextEvent s e ∧ e.eventId ∉ known s i e.runId (storedEvents F s e.runId))) :
    ∃ error s', append i e s = (.error error, s') ∧ Mirrors s' rows events := by
  have hprepare := prepare_eq (i := i) (h.read_stored hname)
  by_cases hschema : e.schemaVersion = auditSchema
  · rw [if_neg (not_not.mpr hschema)] at hprepare
    by_cases hknown : e.eventId ∈ known s i e.runId (storedEvents F s e.runId)
    · rw [if_pos hknown] at hprepare
      exact ⟨_, _, append_error hprepare, h.after_load i hname⟩
    · rw [if_neg hknown] at hprepare
      by_cases hsequence : e.sequence = lastSequence (storedEvents F s e.runId) + 1
      · rw [if_neg (not_not.mpr hsequence)] at hprepare
        by_cases hdump : e.toDict.dumpable = true
        · exact absurd ⟨⟨hschema, hsequence, hdump⟩, hknown⟩ hnot
        · unfold recordLine JsonValue.dumps at hprepare
          rw [if_neg (Bool.eq_false_iff.mp hname.clean), if_neg hdump] at hprepare
          exact ⟨_, _, append_error hprepare, h.after_load i hname⟩
      · rw [if_pos hsequence] at hprepare
        exact ⟨_, _, append_error hprepare, h.after_load i hname⟩
  · rw [if_pos hschema] at hprepare
    exact ⟨_, _, append_error hprepare, h⟩

theorem lastSequence_stored (h : Mirrors s rows events) {runId : Str} (hname : RunName s.root runId) :
    lastSequence (storedEvents F s runId) = SqlAuditStore.latest rows runId := by
  rw [h.storedEvents_eq hname, h.lastSequence_eq runId, h.latest_eq runId]

theorem mem_rows_iff (h : Mirrors s rows events) (eventId : Str) :
    (∃ r ∈ rows, r.eventId = eventId) ↔ ∃ runId, RunName s.root runId ∧ eventId ∈ storedIds F s runId := by
  rw [h.mem_rows eventId]
  constructor
  · rintro ⟨runId, hid⟩
    have hname := h.named runId fun hnil => by simp [hnil] at hid
    exact ⟨runId, hname, by rwa [h.storedIds_eq hname]⟩
  · rintro ⟨runId, hname, hid⟩
    exact ⟨runId, by rwa [← h.storedIds_eq hname]⟩

/-- The next event of a run with a new id goes to the database. -/
theorem sql_insert (h : Mirrors s rows events) (hname : RunName s.root e.runId) (hnext : NextEvent s e)
    (hnew : ∀ runId, RunName s.root runId → e.eventId ∉ storedIds F s runId) :
    SqlAuditStore.append refuses e rows = SqlAuditStore.insert refuses (e.row e.toDict) rows := by
  have hdup : ¬ ∃ r ∈ rows, r.eventId = e.eventId := by
    rw [h.mem_rows_iff]
    rintro ⟨runId, hrun, hid⟩
    exact hnew runId hrun hid
  have hsequence : e.sequence = SqlAuditStore.latest rows e.runId + 1 := by
    rw [← h.lastSequence_stored hname]
    exact hnext.sequence
  unfold SqlAuditStore.append
  rw [if_neg (not_not.mpr hnext.schema)]
  show (if ∃ r ∈ rows, r.eventId = e.eventId then _ else _ : Exec (List (AuditRow F)) StoreError Unit) rows = _
  rw [if_neg hdup, if_neg (not_not.mpr hsequence), jsonable_ok e.toDict_ordered hnext.dumpable]
  rfl

theorem sql_ok (h : Mirrors s rows events) (hname : RunName s.root e.runId) (hnext : NextEvent s e)
    (hnew : ∀ runId, RunName s.root runId → e.eventId ∉ storedIds F s runId) (htaken : refuses (e.row e.toDict) = none) :
    SqlAuditStore.append refuses e rows = (.ok (), rows ++ [e.row e.toDict]) := by
  have hdup : ¬ ∃ r ∈ rows, r.eventId = (e.row e.toDict).eventId ∨
      (r.runId = (e.row e.toDict).runId ∧ r.sequence = (e.row e.toDict).sequence) := by
    rintro ⟨r, hr, hid | ⟨hrun, hsequence⟩⟩
    · obtain ⟨runId, hrunName, hstored⟩ := (h.mem_rows_iff e.eventId).mp ⟨r, hr, hid⟩
      exact hnew runId hrunName hstored
    · have hmem : r.sequence ∈ (rows.filter fun r => r.runId = e.runId).map (·.sequence) :=
        List.mem_map_of_mem (List.mem_filter.mpr ⟨hr, decide_eq_true hrun⟩)
      rw [h.stored e.runId, List.map_map] at hmem
      have hrange : r.sequence ∈ List.range' 1 (events e.runId).length := by
        rw [← h.sequence e.runId]
        exact hmem
      have hlast := hnext.sequence
      rw [h.lastSequence_stored hname, h.latest_eq] at hlast
      have hle := (List.mem_range'_1.mp hrange).2
      have hsame : r.sequence = e.sequence := hsequence
      omega
  rw [h.sql_insert hname hnext hnew]
  show (if ∃ r ∈ rows, _ then _ else _ : Exec (List (AuditRow F)) StoreError Unit) rows = _
  rw [if_neg hdup, htaken]
  rfl

variable (refuses) in
/-- The calls that the database store rejects leave the table. -/
theorem sql_error (h : Mirrors s rows events) (hname : RunName s.root e.runId)
    (hnot : ¬ (NextEvent s e ∧ (∀ runId, RunName s.root runId → e.eventId ∉ storedIds F s runId) ∧
      refuses (e.row e.toDict) = none)) : ∃ error, SqlAuditStore.append refuses e rows = (.error error, rows) := by
  by_cases hnew : NextEvent s e ∧ ∀ runId, RunName s.root runId → e.eventId ∉ storedIds F s runId
  · obtain ⟨hnext, hnew⟩ := hnew
    rw [h.sql_insert hname hnext hnew]
    show ∃ error, (if ∃ r ∈ rows, _ then _ else _ : Exec (List (AuditRow F)) StoreError Unit) rows = _
    split
    next => exact ⟨_, rfl⟩
    next =>
      cases hrefused : refuses (e.row e.toDict) with
      | some error => exact ⟨_, rfl⟩
      | none => exact absurd ⟨hnext, hnew, hrefused⟩ hnot
  · unfold SqlAuditStore.append
    split
    next => exact ⟨_, rfl⟩
    next hschema =>
      show ∃ error, (if ∃ r ∈ rows, r.eventId = e.eventId then _ else _ : Exec (List (AuditRow F)) StoreError Unit) rows = _
      split
      next => exact ⟨_, rfl⟩
      next hdup =>
        split
        next => exact ⟨_, rfl⟩
        next hsequence =>
          rw [← h.lastSequence_stored hname] at hsequence
          have hdump : ¬ e.toDict.dumpable = true := by
            intro hdump
            refine hnew ⟨⟨not_not.mp hschema, not_not.mp hsequence, hdump⟩, fun runId hrun hid => hdup ?_⟩
            exact (h.mem_rows_iff e.eventId).mpr ⟨runId, hrun, hid⟩
          rw [jsonable_error hdump]
          exact ⟨_, rfl⟩

end Mirrors

end

end FailureOrchestrator
