import FailureOrchestrator.AuditAdmission
import Mathlib.Data.List.Forall2

namespace FailureOrchestrator

variable {F : Type} [PyFloat F] {s s' : AuditFiles} {i : Nat} {e : AuditRecord F}

open FileAuditStore

variable (F) in
/-- An empty file, or one whose last line is the whole record of an event and ends in a newline. -/
def WholeRecords (text : Str) : Prop :=
  text = [] ∨ ∃ (before : Str) (r : AuditRecord F), (before = [] ∨ before.getLast? = some '\n') ∧
    r.toDict.dumpable = true ∧ text = before ++ (r.line ++ ['\n'])

theorem afterLast_newline {before l : Str} (hbefore : before = [] ∨ before.getLast? = some '\n')
    (hl : ∀ c ∈ l, c ≠ '\n') : afterLast '\n' (before ++ l) = l := by
  unfold afterLast List.rtakeWhile
  have hpos : ∀ c ∈ l.reverse, (c != '\n') = true := fun c hc => by simpa using hl c (List.mem_reverse.mp hc)
  rw [List.reverse_append, List.takeWhile_append_of_pos hpos]
  have hnil : before.reverse.takeWhile (· != '\n') = [] := by
    rcases hbefore with rfl | hlast
    · rfl
    · rw [← List.head?_reverse] at hlast
      cases hrev : before.reverse with
      | nil => rfl
      | cons c rest =>
        rw [hrev] at hlast
        cases hlast
        rfl
  rw [hnil, List.append_nil, List.reverse_reverse]

theorem unlines_getLast (lines : List Str) : unlines lines = [] ∨ (unlines lines).getLast? = some '\n' := by
  induction lines using List.reverseRecOn with
  | nil => exact .inl rfl
  | append_singleton lines l _ =>
    right
    rw [unlines_append, ← List.append_assoc, List.getLast?_concat]

theorem Printable.newline_free {l : Str} (h : Printable l) : ∀ c ∈ l, c ≠ '\n' := by
  rintro c hc rfl
  exact absurd (h _ hc) (by decide)

/-- A log ends in whole records when nothing follows its last newline and its last line is the record of an event. -/
theorem wholeRecords_iff {lines : List Str} {tail : Str} (h : Logged F lines tail) :
    WholeRecords F (unlines lines ++ tail) ↔ tail = [] ∧ (lines = [] ∨
      ∃ init, ∃ r : AuditRecord F, r.toDict.dumpable = true ∧ lines = init ++ [r.line]) := by
  constructor
  · intro hwhole
    have htail : tail = [] := by
      by_contra hne
      have hprintable := (h.tail.resolve_left hne).printable
      have hlast : (unlines lines ++ tail).getLast? = tail.getLast? := by
        rw [List.getLast?_append_of_ne_nil _ hne]
      have hmem : '\n' ∈ tail := by
        rcases hwhole with hnil | ⟨before, r, -, -, htext⟩
        · exact absurd (List.append_eq_nil_iff.mp hnil).2 hne
        · rw [htext, ← List.append_assoc, List.getLast?_concat] at hlast
          exact List.mem_of_getLast? hlast.symm
      exact hprintable.newline_free '\n' hmem rfl
    refine ⟨htail, ?_⟩
    rw [htail, List.append_nil] at hwhole
    rcases List.eq_nil_or_concat lines with rfl | ⟨init, l, rfl⟩
    · exact .inl rfl
    · right
      rw [List.concat_eq_append] at h hwhole ⊢
      rw [unlines_append] at hwhole
      rcases hwhole with hnil | ⟨before, r, hbefore, hdump, htext⟩
      · simp at hnil
      · rw [← List.append_assoc, ← List.append_assoc] at htext
        have hsame := List.append_cancel_right htext
        have hl := (h.lines l (by simp)).printable.newline_free
        have hlast := congrArg (afterLast '\n') hsame
        rw [afterLast_newline (unlines_getLast init) hl,
          afterLast_newline hbefore (line_printable r).newline_free] at hlast
        exact ⟨init, r, hdump, by rw [hlast]⟩
  · rintro ⟨rfl, rfl | ⟨init, r, hdump, rfl⟩⟩
    · exact .inl rfl
    · refine .inr ⟨unlines init, r, unlines_getLast init, hdump, ?_⟩
      rw [List.append_nil, unlines_append]

/-- The text of a file after a call that returned. -/
theorem append_text (h : append i e s = (.ok (), s')) :
    (∃ events, Admitted s i e events) ∧ s'.text e.runId = s.text e.runId ++ (e.line ++ ['\n']) := by
  rcases hprepare : prepare i e s with ⟨error | line, s1⟩
  · rw [append_error hprepare] at h
    cases h
  · rw [append_ok hprepare] at h
    obtain ⟨events, hadmitted, rfl, rfl⟩ := prepare_ok hprepare
    cases h
    refine ⟨⟨events, hadmitted⟩, ?_⟩
    have hwrite : ((loaded s i e.runId events).write e.runId (e.line ++ ['\n'])).text e.runId = _ :=
      AuditFiles.text_write _ rfl _
    have hsame : (loaded s i e.runId events).text e.runId = s.text e.runId := by
      unfold AuditFiles.text
      rw [loaded_file]
    rw [hsame] at hwrite
    exact hwrite

/-- A call that returned has looked up the file, which is where it was. -/
theorem append_short (h : append i e s = (.ok (), s')) :
    tooLong (path s.root e.runId) = false ∧ tooLong (path s'.root e.runId) = false := by
  rcases hprepare : prepare i e s with ⟨error | line, s1⟩
  · rw [append_error hprepare] at h
    cases h
  · rw [append_ok hprepare] at h
    obtain ⟨events, hadmitted, rfl, rfl⟩ := prepare_ok hprepare
    cases h
    obtain ⟨trailing, hread⟩ := hadmitted.readable
    have hshort := tooLong_of_read hread
    refine ⟨hshort, ?_⟩
    show tooLong (path (loaded s i e.runId events).root e.runId) = false
    rw [loaded_root]
    exact hshort

theorem read_logged {lines : List Str} {tail runId : Str} (hshort : tooLong (path s.root runId) = false)
    (htext : s.text runId = unlines lines ++ tail) (h : Logged F lines tail) : readEventsTolerant (F := F) s runId =
      readRecords runId 1 (lines ++ if tail = [] then [] else [tail]) := by
  rw [readRaw_text hshort, htext, splitlines_logged h]

theorem read_lines {lines : List Str} {runId : Str} (hshort : tooLong (path s.root runId) = false)
    (htext : s.text runId = unlines lines) (h : Logged F lines []) :
    readEventsTolerant (F := F) s runId = readRecords runId 1 lines := by
  rw [← List.append_nil (unlines lines)] at htext
  rw [read_logged hshort htext h, if_pos rfl, List.append_nil]

variable (F) in
/-- The call added its event at the end of what can be read. -/
def Extends (s : AuditFiles) (e : AuditRecord F) (s' : AuditFiles) : Prop :=
  ∀ events torn, readEventsTolerant s e.runId = .ok (events, torn) →
    ∃ torn', readEventsTolerant s' e.runId = .ok (events ++ [e], torn')

/-- Behind an unfinished record the event is lost. -/
theorem not_extends_of_tail {lines : List Str} {tail : Str} (h : append i e s = (.ok (), s'))
    (htext : s.text e.runId = unlines lines ++ tail) (hlogged : Logged F lines tail) (hne : tail ≠ []) :
    ¬ Extends F s e s' := by
  intro hextends
  obtain ⟨⟨events, hadmitted⟩, htext'⟩ := append_text h
  obtain ⟨hshort, hshort'⟩ := append_short h
  have hglued := hlogged.tail.resolve_left hne
  obtain ⟨trailing, hread⟩ := hadmitted.readable
  obtain ⟨torn', hafter⟩ := hextends events trailing hread
  rw [read_logged hshort htext hlogged, if_neg hne] at hread
  have hall : ∀ l ∈ lines ++ [tail], Glued F l := by
    intro l hl
    rcases List.mem_append.mp hl with hl | hl
    · exact hlogged.lines l hl
    · rw [List.mem_singleton.mp hl]
      exact hglued
  obtain ⟨es, hdecoded, hlength⟩ : ∃ es, Decoded F lines es ∧ lines.length ≤ events.length := by
    rcases readRecords_ok hall hread with hdecoded | ⟨init, l, hinit, hdecoded, -⟩
    · have hlen := hdecoded.length_eq
      rw [List.length_append] at hlen
      have hinit := List.forall₂_take_append events lines [tail] hdecoded.flip
      exact ⟨_, hinit.flip, by omega⟩
    · obtain ⟨rfl, -⟩ := List.append_inj' hinit rfl
      exact ⟨events, hdecoded, hdecoded.length_eq.le⟩
  have hline := hlogged.line hadmitted.dumpable
  have htext'' : s'.text e.runId = unlines (lines ++ [tail ++ e.line]) ++ [] := by
    rw [htext', htext, unlines_append, List.append_nil, List.append_assoc, List.append_assoc]
  rw [read_logged hshort' htext'' hline, if_pos rfl, List.append_nil,
    readRecords_torn hdecoded (hline.lines _ (by simp)).not_blank
      (hglued.decode_append (recordPiece_line hadmitted.dumpable))] at hafter
  have hsame := congrArg (fun p => p.1.length) (Except.ok.inj hafter)
  have hlen := hdecoded.length_eq
  dsimp only at hsame
  rw [List.length_append, List.length_singleton] at hsame
  omega

/-- On a file of whole lines the event is read back, unless the last line is malformed. -/
theorem extends_iff_of_lines {lines : List Str} (h : append i e s = (.ok (), s'))
    (htext : s.text e.runId = unlines lines) (hlogged : Logged F lines []) :
    Extends F s e s' ↔ (∃ es, Decoded F lines es) ∧ e.Spelled := by
  obtain ⟨⟨events, hadmitted⟩, htext'⟩ := append_text h
  obtain ⟨hshort, hshort'⟩ := append_short h
  obtain ⟨trailing, hread⟩ := hadmitted.readable
  have hline := hlogged.line hadmitted.dumpable
  rw [List.nil_append] at hline
  have hbefore : readEventsTolerant (F := F) s e.runId = readRecords e.runId 1 lines := by
    exact read_lines hshort htext hlogged
  have hafter : readEventsTolerant (F := F) s' e.runId = readRecords e.runId 1 (lines ++ [e.line]) := by
    exact read_lines hshort' (by rw [htext', htext, unlines_append]) hline
  have hdecodeLine := decodeLine_line hadmitted.dumpable
  have hblank := (hline.lines e.line (by simp)).not_blank
  rw [hbefore] at hread
  have hreadBack : ∀ {es}, Decoded F lines es →
      readEventsTolerant (F := F) s' e.runId = .ok (es ++ [e.readBack], false) := by
    intro es hes
    rw [hafter, readRecords_append hes, readRecords, hblank, if_neg (by decide), hdecodeLine]
    rfl
  constructor
  · intro hextends
    obtain ⟨torn', hextended⟩ := hextends events trailing (by rw [hbefore, hread])
    rcases readRecords_ok hlogged.lines hread with hdecoded | ⟨init, l, rfl, hdecoded, hmalformed⟩
    · refine ⟨⟨events, hdecoded⟩, ?_⟩
      rw [hreadBack hdecoded] at hextended
      have hsame := List.append_cancel_left (congrArg Prod.fst (Except.ok.inj hextended))
      exact (readBack_eq_self hadmitted.schema).mp (List.singleton_inj.mp hsame)
    · obtain ⟨error, hcorrupt⟩ := readRecords_corrupt e.runId hdecoded
        (hlogged.lines l (by simp)).not_blank hmalformed 1 e.line []
      rw [hafter, List.append_assoc, List.singleton_append, hcorrupt] at hextended
      cases hextended
  · rintro ⟨⟨es, hes⟩, hspelled⟩ events' torn hread'
    rw [hbefore, readRecords_decoded hes] at hread'
    cases hread'
    rw [hreadBack hes, (readBack_eq_self hadmitted.schema).mpr hspelled]
    exact ⟨false, rfl⟩

/-- The lines of a file that a call goes on to write to are all read exactly when the last one is a record. -/
theorem decoded_iff {lines : List Str} (hlogged : Logged F lines []) {events : List (AuditRecord F)} {trailing : Bool}
    {runId : Str} (hread : readRecords runId 1 lines = .ok (events, trailing)) :
    (∃ es, Decoded F lines es) ↔
      lines = [] ∨ ∃ init, ∃ r : AuditRecord F, r.toDict.dumpable = true ∧ lines = init ++ [r.line] := by
  constructor
  · rintro ⟨es, hes⟩
    rcases List.eq_nil_or_concat lines with rfl | ⟨init, l, rfl⟩
    · exact .inl rfl
    · right
      rw [List.concat_eq_append] at hes hlogged ⊢
      have hlast := List.forall₂_drop_append es init [l] hes.flip
      rcases (hlogged.lines l (by simp)).decode with ⟨r, hdump, rfl⟩ | hmalformed
      · exact ⟨init, r, hdump, rfl⟩
      · obtain ⟨r, -, ⟨-, hl⟩, -⟩ := List.forall₂_cons_right_iff.mp hlast
        rw [hmalformed] at hl
        cases hl
  · intro hlast
    rcases readRecords_ok hlogged.lines hread with hdecoded | ⟨init, l, rfl, hdecoded, hmalformed⟩
    · exact ⟨events, hdecoded⟩
    · rcases hlast with hnil | ⟨init', r, hdump, hlines⟩
      · cases List.append_eq_nil_iff.mp hnil |>.2
      · obtain ⟨-, hl⟩ := List.append_inj' hlines rfl
        rw [List.singleton_inj.mp hl, decodeLine_line hdump] at hmalformed
        cases hmalformed

/-- A call that returns adds its event at the end of what can be read exactly when the file ends in whole records, and no
text of the event is read back as a default. -/
theorem append_extends_iff (hs : s.Reachable F) (h : append i e s = (.ok (), s')) :
    Extends F s e s' ↔ WholeRecords F (s.text e.runId) ∧ e.Spelled := by
  obtain ⟨lines, tail, htext, hlogged⟩ := allLogged_of_reachable hs e.runId
  rw [htext, wholeRecords_iff hlogged]
  by_cases hne : tail = []
  · subst hne
    rw [List.append_nil] at htext
    rw [extends_iff_of_lines h htext hlogged]
    obtain ⟨⟨events, hadmitted⟩, -⟩ := append_text h
    obtain ⟨trailing, hread⟩ := hadmitted.readable
    rw [read_lines (append_short h).1 htext hlogged] at hread
    rw [decoded_iff hlogged hread]
    constructor
    · rintro ⟨hlast, hspelled⟩
      exact ⟨⟨rfl, hlast⟩, hspelled⟩
    · rintro ⟨⟨-, hlast⟩, hspelled⟩
      exact ⟨hlast, hspelled⟩
  · constructor
    · exact fun hextends => absurd hextends (not_extends_of_tail h htext hlogged hne)
    · exact fun hwhole => absurd hwhole.1.1 hne

section Samples

def sampleRecord (eventId : String) (sequence : Nat) : AuditRecord Unit where
  eventId := eventId.toList
  runId := "run-1".toList
  sequence := sequence
  eventType := "RUN_CREATED".toList
  stateBefore := none
  stateAfter := none
  timestamp := []
  metadata := ⟨[], JsonDict.nil_ordered⟩

/-- The first record is written, but not its newline. -/
def sampleTorn : AuditFiles :=
  ((@appendTorn Unit noFloats 0 (sampleRecord "e1" 1) 1000) (AuditFiles.empty artifacts)).2

def sampleAppended : AuditFiles := ((@append Unit noFloats 1 (sampleRecord "e2" 2)) sampleTorn).2

-- The torn record and the next one are one line.
example : (sampleAppended.text "run-1".toList).count '\n' = 1 := by decide +kernel

theorem sampleTorn_appended : @append Unit noFloats 1 (sampleRecord "e2" 2) sampleTorn = (.ok (), sampleAppended) :=
  returned_eq (by decide +kernel)

def readableIds (s : AuditFiles) : Except StoreError (List Str) :=
  (@readEventsTolerant Unit noFloats s "run-1".toList).map fun p => p.1.map (·.eventId)

/-- A record without its newline takes the next record with it: both events are lost. -/
theorem torn_append_loses_events : @AuditFiles.Reachable Unit noFloats sampleTorn ∧
    @append Unit noFloats 1 (sampleRecord "e2" 2) sampleTorn = (.ok (), sampleAppended) ∧
    readableIds sampleTorn = .ok ["e1".toList] ∧ readableIds sampleAppended = .ok [] ∧
    ¬ @Extends Unit noFloats sampleTorn (sampleRecord "e2" 2) sampleAppended := by
  have hbefore : readableIds sampleTorn = .ok ["e1".toList] := by decide +kernel
  have hafter : readableIds sampleAppended = .ok [] := by decide +kernel
  refine ⟨⟨artifacts, .single (@AuditStep.torn Unit noFloats _ 0 (sampleRecord "e1" 1) 1000)⟩, sampleTorn_appended, hbefore, hafter, ?_⟩
  intro hextends
  obtain ⟨⟨events, torn⟩, hread, -⟩ := ok_of_map hbefore
  obtain ⟨torn', hextended⟩ := hextends events torn hread
  have hrun : (sampleRecord "e2" 2).runId = "run-1".toList := rfl
  rw [hrun] at hextended
  rw [readableIds, hextended] at hafter
  have hids := Except.ok.inj hafter
  dsimp only at hids
  rw [List.map_append] at hids
  exact absurd (List.append_eq_nil_iff.mp hids).2 (List.cons_ne_nil _ _)

def sampleFirst : AuditFiles := ((@append Unit noFloats 0 (sampleRecord "e1" 1)) (AuditFiles.empty artifacts)).2

/-- The first event of a run is there to be read, and then the second one. -/
theorem appends_extend :
    @Extends Unit noFloats (AuditFiles.empty artifacts) (sampleRecord "e1" 1) sampleFirst ∧
    @Extends Unit noFloats sampleFirst (sampleRecord "e2" 2)
      ((@append Unit noFloats 1 (sampleRecord "e2" 2)) sampleFirst).2 := by
  have hfirst : @append Unit noFloats 0 (sampleRecord "e1" 1) (AuditFiles.empty artifacts) = (.ok (), sampleFirst) :=
    returned_eq (by decide +kernel)
  have hspelled : ∀ id n, (sampleRecord id n).Spelled :=
    fun _ _ => ⟨List.cons_ne_nil _ _, List.cons_ne_nil _ _, fun _ hr => absurd hr List.not_mem_nil⟩
  constructor
  · exact (@append_extends_iff Unit noFloats _ _ _ _ ⟨artifacts, .refl⟩ hfirst).mpr ⟨.inl rfl, hspelled _ _⟩
  · have hreached : @AuditFiles.Reachable Unit noFloats sampleFirst :=
      ⟨artifacts, .single (@AuditStep.append Unit noFloats _ 0 (sampleRecord "e1" 1))⟩
    refine (@append_extends_iff Unit noFloats _ _ _ _ hreached (returned_eq (by decide +kernel))).mpr
      ⟨.inr ⟨[], sampleRecord "e1" 1, .inl rfl, ?_, ?_⟩, hspelled _ _⟩
    · decide +kernel
    · decide +kernel

end Samples

end FailureOrchestrator
