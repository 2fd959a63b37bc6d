import FailureOrchestrator.LoggedText

namespace FailureOrchestrator

section

variable {F : Type} [PyFloat F] {s s' : AuditFiles} {i : Nat} {e : AuditRecord F}

namespace AuditFiles

open FileAuditStore

omit [PyFloat F] in
theorem file_congr {s s' : AuditFiles} (hroot : s'.root = s.root) (hcontent : s'.content = s.content) (runId : Str) :
    s'.file runId = s.file runId := by
  unfold file
  rw [hroot, hcontent]

/-- The text of a run's file; a file that does not exist has none. -/
def text (s : AuditFiles) (runId : Str) : Str := (s.file runId).getD []

@[simp] theorem text_remember (s : AuditFiles) (i : Nat) (runId other : Str) (ids : List Str) :
    (s.remember i runId ids).text other = s.text other := rfl

/-- A write is seen of every run with the same file. -/
theorem text_write (s : AuditFiles) {runId other : Str}
    (h : (path s.root other).resolved = (path s.root runId).resolved) (more : Str) :
    (s.write runId more).text other = s.text other ++ more := by
  simp [text, write, file, h]

theorem text_write_ne (s : AuditFiles) {runId other : Str}
    (h : (path s.root other).resolved ≠ (path s.root runId).resolved) (more : Str) :
    (s.write runId more).text other = s.text other := by
  simp [text, write, file, h]

variable (F) in
/-- Every file is a log. -/
def AllLogged (s : AuditFiles) : Prop := ∀ runId, ∃ lines tail, s.text runId = unlines lines ++ tail ∧ Logged F lines tail

end AuditFiles

namespace FileAuditStore

theorem readRaw_text {s : AuditFiles} {runId : Str} (h : tooLong (path s.root runId) = false) :
    readEventsTolerant (F := F) s runId = readRecords runId 1 (splitlines (s.text runId)) := by
  unfold readEventsTolerant AuditFiles.text
  rw [h]
  cases s.file runId with
  | none => rfl
  | some text => rfl

theorem tooLong_of_read {s : AuditFiles} {runId : Str} {p : List (AuditRecord F) × Bool}
    (h : readEventsTolerant s runId = .ok p) : tooLong (path s.root runId) = false := by
  unfold readEventsTolerant at h
  split at h
  next => cases h
  next hshort => exact Bool.eq_false_iff.mpr hshort

/-- The state after instance `i` has looked at what it knows of a run. -/
def loaded (s : AuditFiles) (i : Nat) (runId : Str) (events : List (AuditRecord F)) : AuditFiles :=
  if (s.seen i runId).isEmpty then s.remember i runId (events.map (·.eventId)) else s

omit [PyFloat F] in
theorem loaded_content (s : AuditFiles) (i : Nat) (runId : Str) (events : List (AuditRecord F)) :
    (loaded s i runId events).content = s.content := by
  unfold loaded
  split <;> rfl

omit [PyFloat F] in
theorem loaded_root (s : AuditFiles) (i : Nat) (runId : Str) (events : List (AuditRecord F)) :
    (loaded s i runId events).root = s.root := by
  unfold loaded
  split <;> rfl

omit [PyFloat F] in
theorem loaded_file (s : AuditFiles) (i : Nat) (runId : Str) (events : List (AuditRecord F)) (other : Str) :
    (loaded s i runId events).file other = s.file other :=
  AuditFiles.file_congr (loaded_root s i runId events) (loaded_content s i runId events) other

/-- The ids that instance `i` compares with, when a run's file holds the given events. -/
def known (s : AuditFiles) (i : Nat) (runId : Str) (events : List (AuditRecord F)) : List Str :=
  if (s.seen i runId).isEmpty then events.map (·.eventId) else s.seen i runId

omit [PyFloat F] in
theorem loaded_seen (s : AuditFiles) (i : Nat) (runId : Str) (events : List (AuditRecord F)) :
    (loaded s i runId events).seen i runId = known s i runId events := by
  unfold loaded known
  split
  next hempty =>
    rw [List.isEmpty_iff] at hempty
    simp [AuditFiles.remember, hempty]
  next => rfl

/-- The checks of `append`, one after the other, on a file that can be read. -/
theorem prepare_eq {events : List (AuditRecord F)} {trailing : Bool}
    (hread : readEventsTolerant s e.runId = .ok (events, trailing)) :
    prepare i e s =
      if e.schemaVersion ≠ auditSchema then (.error (.unsupportedSchema e.schemaVersion), s)
      else if e.eventId ∈ known s i e.runId events then
        (.error (.persistence ("duplicate event_id: ".toList ++ e.eventId)), loaded s i e.runId events)
      else if e.sequence ≠ lastSequence events + 1 then
        (.error (.persistence ("non-monotonic sequence: expected ".toList ++ natStr (lastSequence events + 1) ++
          ", got ".toList ++ natStr e.sequence)), loaded s i e.runId events)
      else (recordLine (path s.root e.runId) e, loaded s i e.runId events) := by
  have hload : loadIds F i e.runId s = (.ok (), loaded s i e.runId events) := by
    show (if (s.seen i e.runId).isEmpty then _ else _ : Exec AuditFiles StoreError Unit) s = _
    unfold loaded
    split
    next =>
      show Exec.bind (Exec.lift (readEventsTolerant (F := F) s e.runId)) _ s = _
      rw [hread]
      rfl
    next => rfl
  have hlast : latestSequence F (loaded s i e.runId events) e.runId = .ok (lastSequence events) := by
    unfold latestSequence
    have hsame : readEventsTolerant (F := F) (loaded s i e.runId events) e.runId = .ok (events, trailing) := by
      rw [← hread]
      unfold readEventsTolerant
      rw [loaded_file, loaded_root]
    rw [hsame]
    rfl
  unfold prepare
  split
  next => rfl
  next =>
    show Exec.bind (loadIds F i e.runId) _ s = _
    rw [Exec.bind, hload]
    show (if e.eventId ∈ (loaded s i e.runId events).seen i e.runId then _ else _ : Exec AuditFiles StoreError Str)
      (loaded s i e.runId events) = _
    rw [loaded_seen]
    split
    next => rfl
    next =>
      show Exec.bind (Exec.lift (latestSequence F (loaded s i e.runId events) e.runId)) _ (loaded s i e.runId events) = _
      rw [hlast]
      show (if e.sequence ≠ lastSequence events + 1 then _ else _ : Exec AuditFiles StoreError Str)
        (loaded s i e.runId events) = _
      rw [loaded_root]
      split
      next => rfl
      next => rfl

/-- A file that cannot be read is not appended to. -/
theorem prepare_unreadable {error : StoreError} (hread : readEventsTolerant (F := F) s e.runId = .error error) :
    ∃ error, prepare i e s = (.error error, s) := by
  unfold prepare
  split
  next => exact ⟨_, rfl⟩
  next =>
    show ∃ error, Exec.bind (loadIds F i e.runId) _ s = _
    by_cases hempty : (s.seen i e.runId).isEmpty
    · have hload : loadIds F i e.runId s = (.error error, s) := by
        show (if (s.seen i e.runId).isEmpty then _ else _ : Exec AuditFiles StoreError Unit) s = _
        rw [if_pos hempty]
        show Exec.bind (Exec.lift (readEventsTolerant (F := F) s e.runId)) _ s = _
        rw [hread]
        rfl
      rw [Exec.bind, hload]
      exact ⟨_, rfl⟩
    · have hload : loadIds F i e.runId s = (.ok (), s) := by
        show (if (s.seen i e.runId).isEmpty then _ else _ : Exec AuditFiles StoreError Unit) s = _
        rw [if_neg hempty]
        rfl
      rw [Exec.bind, hload]
      show ∃ error, (if e.eventId ∈ s.seen i e.runId then _ else _ : Exec AuditFiles StoreError Str) s = _
      split
      next => exact ⟨_, rfl⟩
      next =>
        have hlast : latestSequence F s e.runId = .error error := by
          unfold latestSequence
          rw [hread]
          rfl
        show ∃ error, Exec.bind (Exec.lift (latestSequence F s e.runId)) _ s = _
        rw [hlast]
        exact ⟨_, rfl⟩

/-- What a call has checked when it goes on to write. -/
structure Admitted (s : AuditFiles) (i : Nat) (e : AuditRecord F) (events : List (AuditRecord F)) : Prop where
  schema : e.schemaVersion = auditSchema
  readable : ∃ trailing, readEventsTolerant s e.runId = .ok (events, trailing)
  fresh : e.eventId ∉ known s i e.runId events
  sequence : e.sequence = lastSequence events + 1
  dumpable : e.toDict.dumpable = true

theorem prepare_ok {line : Str} (h : prepare i e s = (.ok line, s')) :
    ∃ events, Admitted s i e events ∧ line = e.line ∧ s' = loaded s i e.runId events := by
  cases hread : readEventsTolerant (F := F) s e.runId with
  | error error =>
    obtain ⟨error', herror⟩ := prepare_unreadable (i := i) hread
    rw [herror] at h
    cases h
  | ok p =>
    obtain ⟨events, trailing⟩ := p
    rw [prepare_eq hread] at h
    split at h
    · cases h
    next hschema =>
      split at h
      · cases h
      next hfresh =>
        split at h
        · cases h
        next hsequence =>
          unfold recordLine JsonValue.dumps at h
          split at h
          next => cases h
          next =>
            split at h
            next hdump =>
              cases h
              exact ⟨events, ⟨not_not.mp hschema, ⟨trailing, hread⟩, hfresh, not_not.mp hsequence, hdump⟩, rfl, rfl⟩
            next => cases h

/-- The checks leave the files as they are. -/
theorem prepare_files : (prepare i e s).2.root = s.root ∧ (prepare i e s).2.content = s.content := by
  cases hread : readEventsTolerant (F := F) s e.runId with
  | error error =>
    obtain ⟨error', herror⟩ := prepare_unreadable (i := i) hread
    rw [herror]
    exact ⟨rfl, rfl⟩
  | ok p =>
    obtain ⟨events, trailing⟩ := p
    have hloaded := And.intro (loaded_root s i e.runId events) (loaded_content s i e.runId events)
    rw [prepare_eq hread]
    split
    · exact ⟨rfl, rfl⟩
    split
    · exact hloaded
    split
    · exact hloaded
    · exact hloaded

end FileAuditStore

end

section

variable {F : Type} [PyFloat F] {s s' : AuditFiles} {i : Nat} {e : AuditRecord F}

open FileAuditStore

theorem unlines_append (lines : List Str) (l : Str) : unlines (lines ++ [l]) = unlines lines ++ (l ++ ['\n']) := by
  simp [unlines]

theorem recordPiece_line (h : e.toDict.dumpable = true) : RecordPiece F e.line := by
  obtain ⟨t, ht⟩ := line_cons e
  exact ⟨by rw [ht]; exact List.cons_ne_nil _ _, e, h, List.prefix_refl _⟩

theorem Logged.line {lines : List Str} {tail : Str} (h : Logged F lines tail) (hdump : e.toDict.dumpable = true) :
    Logged F (lines ++ [tail ++ e.line]) [] := by
  refine ⟨?_, .inl rfl⟩
  intro l hl
  rcases List.mem_append.mp hl with hl | hl
  · exact h.lines l hl
  · rw [List.mem_singleton.mp hl]
    exact Glued.append h.tail (recordPiece_line hdump)

theorem Logged.torn {lines : List Str} {tail : Str} (h : Logged F lines tail) (hdump : e.toDict.dumpable = true)
    (n : Nat) : Logged F lines (tail ++ e.line.take n) := by
  refine ⟨h.lines, ?_⟩
  by_cases hnil : e.line.take n = []
  · rw [hnil, List.append_nil]
    exact h.tail
  · exact .inr (Glued.append h.tail ⟨hnil, e, hdump, List.take_prefix n e.line⟩)

/-- What a writing step leaves of a log is a log. -/
theorem allLogged_write (runId more : Str) (h : s.AllLogged F)
    (hmore : ∀ lines tail, Logged F lines tail → ∃ lines' tail', unlines lines ++ tail ++ more = unlines lines' ++ tail' ∧
      Logged F lines' tail') : (s.write runId more).AllLogged F := by
  intro other
  by_cases hother : (path s.root other).resolved = (path s.root runId).resolved
  · obtain ⟨lines, tail, htext, hlogged⟩ := h other
    obtain ⟨lines', tail', htext', hlogged'⟩ := hmore lines tail hlogged
    exact ⟨lines', tail', by rw [AuditFiles.text_write s hother, htext, htext'], hlogged'⟩
  · obtain ⟨lines, tail, htext, hlogged⟩ := h other
    exact ⟨lines, tail, by rw [AuditFiles.text_write_ne s hother, htext], hlogged⟩

theorem allLogged_congr (hfile : ∀ runId, s'.file runId = s.file runId) (h : s.AllLogged F) : s'.AllLogged F := by
  intro runId
  have htext : s'.text runId = s.text runId := by
    unfold AuditFiles.text
    rw [hfile]
  rw [htext]
  exact h runId

/-- What `append` does after its checks. -/
theorem append_ok {line : Str} {s1 : AuditFiles} (h : prepare i e s = (.ok line, s1)) :
    append i e s = (.ok (), (s1.write e.runId (line ++ ['\n'])).remember i e.runId [e.eventId]) := by
  show Exec.bind (prepare i e) _ s = _
  rw [Exec.bind, h]
  rfl

theorem append_error {error : StoreError} {s1 : AuditFiles} (h : prepare i e s = (.error error, s1)) :
    append i e s = (.error error, s1) := by
  show Exec.bind (prepare i e) _ s = _
  rw [Exec.bind, h]

theorem appendTorn_ok {line : Str} {s1 : AuditFiles} {n : Nat} (h : prepare i e s = (.ok line, s1)) :
    (appendTorn i e n s).2 = s1.write e.runId (line.take n) := by
  show (Exec.bind (prepare i e) _ s).2 = _
  rw [Exec.bind, h]
  rfl

theorem appendTorn_error {error : StoreError} {s1 : AuditFiles} {n : Nat} (h : prepare i e s = (.error error, s1)) :
    (appendTorn i e n s).2 = s1 := by
  show (Exec.bind (prepare i e) _ s).2 = _
  rw [Exec.bind, h]

/-- A step keeps every file a log. -/
theorem allLogged_step (h : s.AllLogged F) (hstep : AuditStep F s s') : s'.AllLogged F := by
  cases hstep with
  | append i e =>
    rcases hprepare : prepare i e s with ⟨error | line, s1⟩
    · rw [append_error hprepare]
      have hfiles := prepare_files (i := i) (e := e) (s := s)
      rw [hprepare] at hfiles
      exact allLogged_congr (AuditFiles.file_congr hfiles.1 hfiles.2) h
    · rw [append_ok hprepare]
      obtain ⟨events, hadmitted, rfl, rfl⟩ := prepare_ok hprepare
      have hloaded := allLogged_congr (loaded_file s i e.runId events) h
      refine allLogged_congr (fun _ => rfl) (allLogged_write e.runId _ hloaded ?_)
      intro lines tail hlogged
      refine ⟨_, _, ?_, hlogged.line hadmitted.dumpable⟩
      rw [unlines_append, List.append_nil, List.append_assoc, List.append_assoc]
  | torn i e n =>
    rcases hprepare : prepare i e s with ⟨error | line, s1⟩
    · rw [appendTorn_error hprepare]
      have hfiles := prepare_files (i := i) (e := e) (s := s)
      rw [hprepare] at hfiles
      exact allLogged_congr (AuditFiles.file_congr hfiles.1 hfiles.2) h
    · rw [appendTorn_ok hprepare]
      obtain ⟨events, hadmitted, rfl, rfl⟩ := prepare_ok hprepare
      have hloaded := allLogged_congr (loaded_file s i e.runId events) h
      apply allLogged_write _ _ hloaded
      intro lines tail hlogged
      exact ⟨_, _, List.append_assoc _ _ _, hlogged.torn hadmitted.dumpable n⟩
  | reopen i => exact h

theorem allLogged_of_reachable (h : s.Reachable F) : s.AllLogged F := by
  obtain ⟨root, h⟩ := h
  induction h with
  | refl => exact fun _ => ⟨[], [], rfl, fun _ hl => (nomatch hl), .inl rfl⟩
  | tail _ hstep ih => exact allLogged_step ih hstep

end

end FailureOrchestrator
