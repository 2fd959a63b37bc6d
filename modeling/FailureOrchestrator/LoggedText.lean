import FailureOrchestrator.AuditFiles
import FailureOrchestrator.GitDiffLines
import FailureOrchestrator.JsonAscii
import FailureOrchestrator.JsonTorn

namespace FailureOrchestrator

section

variable {F : Type} [PyFloat F]

theorem Printable.unbroken {s : Str} (h : Printable s) : Unbroken s := fun c hc => isLineBreak_of_printable (h c hc)

theorem line_printable (e : AuditRecord F) : Printable e.line := write_printable plainStyle_oneLine e.toDict 0

omit [PyFloat F] in
theorem joinWith_head (sep x : Str) (xs : List Str) : ∃ more, joinWith sep (x :: xs) = x ++ more := by
  cases xs with
  | nil => exact ⟨[], (List.append_nil x).symm⟩
  | cons y ys => exact ⟨sep ++ joinWith sep (y :: ys), List.append_assoc x sep _⟩

theorem line_cons (e : AuditRecord F) : ∃ t, e.line = '\x7b' :: '"' :: 'a' :: t := by
  obtain ⟨x, rest, hentries⟩ : ∃ x rest, e.entries = ("actor".toList, x) :: rest := ⟨_, _, rfl⟩
  rw [AuditRecord.line, AuditRecord.toDict_eq, JsonValue.write, hentries, JsonValue.writeEntries]
  obtain ⟨more, hmore⟩ := joinWith_head (plainStyle.item ++ plainStyle.newline 1)
    (writeString "actor".toList ++ plainStyle.key ++ x.write plainStyle 1) (JsonValue.writeEntries plainStyle 1 rest)
  have hne := List.cons_ne_nil (writeString "actor".toList ++ plainStyle.key ++ x.write plainStyle 1)
    (JsonValue.writeEntries plainStyle 1 rest)
  have htext := bracket_append plainStyle 0 '\x7b' '\x7d' hne []
  rw [List.append_nil, hmore] at htext
  rw [htext]
  exact ⟨_, rfl⟩

theorem line_dictText {e : AuditRecord F} (h : e.toDict.dumpable = true) : DictText e.line := by
  obtain ⟨t, ht⟩ := line_cons e
  exact dictText_write plainStyle_valid e.toDict_ordered h ht rfl rfl

theorem decodeLine_line {e : AuditRecord F} (h : e.toDict.dumpable = true) : decodeLine e.line = .ok e.readBack := by
  unfold decodeLine AuditRecord.line
  rw [loads_write plainStyle_valid e.toDict_ordered h]
  exact e.fromDict_toDict

/-- A dict text inside another one, from its start, is all of it. -/
theorem DictText.eq_of_take {p r : Str} (hp : DictText p) (hr : DictText r) (h : p <+: r) : p = r := by
  obtain ⟨body, rfl, hbody⟩ := hr.body
  obtain ⟨inner, rfl, -⟩ := hp.body
  rcases List.prefix_concat_iff.mp (List.cons_prefix_cons.mp h).2 with hend | ⟨cut, hcut⟩
  · rw [hend]
  · obtain ⟨st, -, hscan⟩ := hbody 1
    rw [← hcut] at hscan
    obtain ⟨mid, hmid, -⟩ := hscan.split
    obtain ⟨-, next, hstep, hzero⟩ := hp.scan 0
    cases hstep
    have hdepth := hmid.last
    rw [hmid.unique hzero] at hdepth
    exact absurd hdepth (by decide)

variable (F) in
/-- What a call leaves of its record. -/
def RecordPiece (p : Str) : Prop := p ≠ [] ∧ ∃ e : AuditRecord F, e.toDict.dumpable = true ∧ p <+: e.line

variable (F) in
/-- A line of a log: pieces of records, one behind the other. -/
def Glued (l : Str) : Prop := ∃ ps, ps ≠ [] ∧ l = ps.flatten ∧ ∀ p ∈ ps, RecordPiece F p

variable (F) in
/-- A log: lines and what follows the last newline. -/
structure Logged (lines : List Str) (tail : Str) : Prop where
  lines : ∀ l ∈ lines, Glued F l
  tail : tail = [] ∨ Glued F tail

section Lines

variable {l p : Str}

theorem RecordPiece.piece (h : RecordPiece F p) : Piece p := by
  obtain ⟨hne, e, hdump, hp⟩ := h
  exact ⟨hne, e.line, line_dictText hdump, hp⟩

theorem RecordPiece.printable (h : RecordPiece F p) : Printable p := by
  obtain ⟨-, e, -, hp⟩ := h
  exact fun c hc => line_printable e c (hp.subset hc)

theorem Glued.printable (h : Glued F l) : Printable l := by
  obtain ⟨ps, -, rfl, hps⟩ := h
  intro c hc
  obtain ⟨p, hp, hc⟩ := List.mem_flatten.mp hc
  exact (hps p hp).printable c hc

theorem Glued.cons (h : Glued F l) : ∃ t, l = '\x7b' :: t := by
  obtain ⟨ps, hne, rfl, hps⟩ := h
  obtain ⟨p, rest, rfl⟩ := List.exists_cons_of_ne_nil hne
  obtain ⟨t, ht⟩ := (hps p List.mem_cons_self).piece.head
  exact ⟨t ++ rest.flatten, by rw [List.flatten_cons, ht, List.cons_append]⟩

theorem Glued.not_blank (h : Glued F l) : (strip l).isEmpty = false := by
  obtain ⟨t, rfl⟩ := h.cons
  have hl : lstrip ('\x7b' :: t) = '\x7b' :: t := by
    rw [lstrip, List.dropWhile_cons_of_neg (by decide)]
  rw [strip, hl, List.isEmpty_eq_false_iff]
  intro hnil
  have hall := List.rdropWhile_eq_nil_iff.mp hnil '\x7b' List.mem_cons_self
  cases hall

theorem Glued.append (h : l = [] ∨ Glued F l) (hp : RecordPiece F p) : Glued F (l ++ p) := by
  rcases h with rfl | ⟨ps, hne, rfl, hps⟩
  · exact ⟨[p], by simp, by simp, by simpa using hp⟩
  · refine ⟨ps ++ [p], by simp, by simp, ?_⟩
    intro q hq
    rcases List.mem_append.mp hq with hq | hq
    · exact hps q hq
    · rw [List.mem_singleton.mp hq]
      exact hp

/-- A line is the record of an event, or malformed. -/
theorem Glued.decode (h : Glued F l) :
    (∃ e : AuditRecord F, e.toDict.dumpable = true ∧ l = e.line) ∨ decodeLine (F := F) l = .error .malformed := by
  obtain ⟨ps, -, rfl, hps⟩ := h
  cases hloads : JsonValue.loads (F := F) ps.flatten with
  | none =>
    right
    unfold decodeLine
    rw [hloads]
    rfl
  | some v =>
    left
    obtain ⟨r, hr, hone⟩ := pieces_loads (fun p hp => (hps p hp).piece) hloads
    subst hone
    obtain ⟨-, e, hdump, hp⟩ := hps r List.mem_cons_self
    refine ⟨e, hdump, ?_⟩
    rw [List.flatten_singleton]
    exact hr.eq_of_take (line_dictText hdump) hp

/-- A record behind the torn end of another one makes a line that is malformed. -/
theorem Glued.decode_append (h : Glued F l) (hp : RecordPiece F p) :
    decodeLine (F := F) (l ++ p) = .error .malformed := by
  obtain ⟨ps, hne, rfl, hps⟩ := h
  have hall : ∀ q ∈ ps ++ [p], Piece q := by
    intro q hq
    rcases List.mem_append.mp hq with hq | hq
    · exact (hps q hq).piece
    · rw [List.mem_singleton.mp hq]
      exact hp.piece
  cases hloads : JsonValue.loads (F := F) (ps.flatten ++ p) with
  | none =>
    unfold decodeLine
    rw [hloads]
    rfl
  | some v =>
    have htext : ps.flatten ++ p = (ps ++ [p]).flatten := by simp
    rw [htext] at hloads
    obtain ⟨r, -, hone⟩ := pieces_loads hall hloads
    obtain ⟨q, rest, rfl⟩ := List.exists_cons_of_ne_nil hne
    have hlength := congrArg List.length hone
    simp only [List.length_append, List.length_cons, List.length_nil] at hlength
    omega

end Lines

section Texts

variable {lines : List Str} {tail : Str}

theorem splitlines_logged (h : Logged F lines tail) :
    splitlines (unlines lines ++ tail) = lines ++ if tail = [] then [] else [tail] := by
  obtain ⟨hlines, htail⟩ := h
  have hunbroken : ∀ l ∈ lines, Unbroken l := fun l hl => (hlines l hl).printable.unbroken
  split
  next hnil => rw [hnil, List.append_nil, List.append_nil, splitlines_unlines hunbroken]
  next hne => exact splitlines_unlines_tail hunbroken (htail.resolve_left hne).printable.unbroken hne

end Texts

end

section

variable {F : Type} [PyFloat F] {runId : Str} {lines : List Str} {tail : Str}

variable (F) in
/-- Lines that are read as the given events. -/
def Decoded (lines : List Str) (events : List (AuditRecord F)) : Prop :=
  List.Forall₂ (fun l e => (strip l).isEmpty = false ∧ decodeLine l = .ok e) lines events

section Records

variable {events : List (AuditRecord F)} {l : Str}

theorem readRecords_append (h : Decoded F lines events) (idx : Nat) (rest : List Str) :
    readRecords runId idx (lines ++ rest) =
      (readRecords runId (idx + lines.length) rest).map fun p => (events ++ p.1, p.2) := by
  induction h generalizing idx with
  | nil =>
    rw [List.nil_append, List.length_nil, Nat.add_zero]
    cases readRecords (F := F) runId idx rest with
    | error e => rfl
    | ok p => rfl
  | @cons l e lines events hle _ ih =>
    obtain ⟨hblank, hdecode⟩ := hle
    rw [List.cons_append, readRecords, hblank, if_neg (by decide), hdecode]
    dsimp only
    rw [ih (idx + 1), List.length_cons, Nat.add_right_comm, Nat.add_assoc]
    cases readRecords (F := F) runId (idx + (lines.length + 1)) rest with
    | error e => rfl
    | ok p => rfl

theorem readRecords_decoded (h : Decoded F lines events) (idx : Nat) :
    readRecords runId idx lines = .ok (events, false) := by
  have hread : readRecords runId idx (lines ++ []) = _ := readRecords_append h idx []
  rw [List.append_nil] at hread
  rw [hread, readRecords]
  show Except.ok (events ++ [], false) = _
  rw [List.append_nil]

theorem readRecords_torn (h : Decoded F lines events) (hblank : (strip l).isEmpty = false)
    (hl : decodeLine (F := F) l = .error .malformed) (idx : Nat) :
    readRecords runId idx (lines ++ [l]) = .ok (events, true) := by
  rw [readRecords_append h, readRecords, hblank, if_neg (by decide), hl]
  show Except.ok (events ++ [], true) = _
  rw [List.append_nil]

theorem readRecords_corrupt (runId : Str) (h : Decoded F lines events) (hblank : (strip l).isEmpty = false)
    (hl : decodeLine (F := F) l = .error .malformed) (idx : Nat) (m : Str) (rest : List Str) :
    ∃ error, readRecords (F := F) runId idx (lines ++ l :: m :: rest) = .error error := by
  rw [readRecords_append h, readRecords, hblank, if_neg (by decide), hl]
  exact ⟨_, rfl⟩

/-- Lines of a log that are read are events, but for a malformed last one. -/
theorem readRecords_ok (hlines : ∀ l ∈ lines, Glued F l) {idx : Nat} {trailing : Bool}
    (h : readRecords runId idx lines = .ok (events, trailing)) :
    Decoded F lines events ∨
      ∃ init l, lines = init ++ [l] ∧ Decoded F init events ∧ decodeLine (F := F) l = .error .malformed := by
  induction lines generalizing idx events trailing with
  | nil =>
    cases h
    exact .inl .nil
  | cons l lines ih =>
    have hl := hlines l List.mem_cons_self
    have hblank := hl.not_blank
    rw [readRecords, hblank, if_neg (by decide)] at h
    rcases hl.decode with ⟨e, hdump, rfl⟩ | hmalformed
    · have hdecode := decodeLine_line hdump
      rw [hdecode] at h
      dsimp only at h
      cases hrest : readRecords (F := F) runId (idx + 1) lines with
      | error error =>
        rw [hrest] at h
        cases h
      | ok p =>
        obtain ⟨more, last⟩ := p
        rw [hrest] at h
        cases h
        rcases ih (fun k hk => hlines k (List.mem_cons_of_mem _ hk)) hrest with hall | ⟨init, k, rfl, hinit, hk⟩
        · exact .inl (.cons ⟨hblank, hdecode⟩ hall)
        · exact .inr ⟨e.line :: init, k, rfl, .cons ⟨hblank, hdecode⟩ hinit, hk⟩
    · rw [hmalformed] at h
      dsimp only at h
      split at h
      next hnil =>
        cases h
        rw [List.isEmpty_iff] at hnil
        subst hnil
        exact .inr ⟨[], l, rfl, .nil, hmalformed⟩
      next => cases h

end Records

section Spelled

/-- No text of the event is read as a default. -/
def AuditEvent.Spelled (e : AuditEvent) : Prop :=
  e.actor ≠ [] ∧ e.component ≠ [] ∧ ∀ r ∈ e.evidenceRefs, r.contentType ≠ ""

theorem nonEmptyOr_eq_self {s default : Str} (hdefault : default ≠ []) : nonEmptyOr s default = s ↔ s ≠ [] := by
  unfold nonEmptyOr
  split
  next h =>
    rw [List.isEmpty_iff] at h
    subst h
    exact ⟨fun heq => absurd heq hdefault, fun hne => absurd rfl hne⟩
  next h =>
    rw [List.isEmpty_iff] at h
    exact ⟨fun _ => h, fun _ => rfl⟩

theorem DurableEvidenceRef.readBack_eq_self {r : DurableEvidenceRef} : r.readBack = r ↔ r.contentType ≠ "" := by
  have hfield : r.readBack = r ↔ nonEmptyOr r.contentType.toList "application/json".toList = r.contentType.toList := by
    unfold DurableEvidenceRef.readBack
    constructor
    · intro h
      have hcontent := congrArg (fun x : DurableEvidenceRef => x.contentType.toList) h
      rw [String.toList_ofList] at hcontent
      exact hcontent
    · intro h
      rw [h, String.ofList_toList]
  rw [hfield, nonEmptyOr_eq_self (by decide)]
  exact not_congr String.toList_eq_nil_iff

omit [PyFloat F] in
theorem readBack_eq_iff {e : AuditRecord F} : e.readBack = e ↔ e.schemaVersion ≠ [] ∧ e.Spelled := by
  constructor
  · intro h
    have hversion := congrArg (fun x : AuditRecord F => x.schemaVersion) h
    have hactor := congrArg (fun x : AuditRecord F => x.actor) h
    have hcomponent := congrArg (fun x : AuditRecord F => x.component) h
    have hrefs := congrArg (fun x : AuditRecord F => x.evidenceRefs) h
    refine ⟨(nonEmptyOr_eq_self (by decide)).mp hversion, (nonEmptyOr_eq_self (by decide)).mp hactor,
      (nonEmptyOr_eq_self (by decide)).mp hcomponent, ?_⟩
    intro r hr
    apply DurableEvidenceRef.readBack_eq_self.mp
    obtain ⟨k, hk, rfl⟩ := List.getElem_of_mem hr
    have hget := congrArg (·[k]?) hrefs
    have hk' : k < (e.evidenceRefs.map DurableEvidenceRef.readBack).length := by rwa [List.length_map]
    simp only [AuditRecord.readBack, List.getElem?_eq_getElem hk', List.getElem?_eq_getElem hk, List.getElem_map,
      Option.some.injEq] at hget
    exact hget
  · rintro ⟨hversion, hactor, hcomponent, hrefs⟩
    have hmap : e.evidenceRefs.map DurableEvidenceRef.readBack = e.evidenceRefs :=
      (List.map_congr_left fun r hr => DurableEvidenceRef.readBack_eq_self.mpr (hrefs r hr)).trans (List.map_id _)
    unfold AuditRecord.readBack
    rw [(nonEmptyOr_eq_self (by decide)).mpr hversion, (nonEmptyOr_eq_self (by decide)).mpr hactor,
      (nonEmptyOr_eq_self (by decide)).mpr hcomponent, hmap]

omit [PyFloat F] in
theorem readBack_eq_self {e : AuditRecord F} (hschema : e.schemaVersion = auditSchema) : e.readBack = e ↔ e.Spelled := by
  have hversion : e.schemaVersion ≠ [] := by
    rw [hschema]
    decide
  rw [readBack_eq_iff, and_iff_right hversion]

end Spelled

end

end FailureOrchestrator
