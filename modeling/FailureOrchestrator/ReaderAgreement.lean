import FailureOrchestrator.CrlfLines
import FailureOrchestrator.DiffReaders

namespace FailureOrchestrator

/-- git writes no hunk without a line. -/
def GitDiff.HunksFilled (d : GitDiff) : Prop := ∀ c ∈ d, ∀ h ∈ c.hunks, h.lines ≠ []

/-- The texts of the added or of the removed lines of a diff. -/
def GitDiff.texts (d : GitDiff) (marker : LineMarker) : List Str := markedTexts marker (d.flatMap FileChange.hunkLines)

/-- No added or removed line looks like a label. -/
def GitDiff.ShowsLines (d : GitDiff) : Prop :=
  (∀ t ∈ d.texts .added, hiddenBy '+' t = false) ∧ ∀ t ∈ d.texts .removed, hiddenBy '-' t = false

section

variable [UnicodeData]

/-- The three readers count the same lines, and the report lists the files with hunks as the gates read them. -/
def ReadersAgree (patch : Str) : Prop :=
  ∃ files stats, parseUnifiedDiff patch = .ok files ∧ diffstat patch = .ok stats ∧
    stats.map FileStat.path = (files.filter fun f => !f.lines.isEmpty).map FileDiff.path ∧
    (patchLineStats patch).added = (stats.map FileStat.added).sum ∧
    (patchLineStats patch).removed = (stats.map FileStat.removed).sum ∧
    (patchLineStats patch).added = (files.map fun f => f.added.length).sum ∧
    (patchLineStats patch).removed = (files.map fun f => f.removed.length).sum

end

/-! ## Counts of lines -/

theorem map_filter_marker (marker : LineMarker) (ls : List HunkLine) :
    (ls.filter fun l => decide (l.marker = marker)).map HunkLine.text = markedTexts marker ls := by
  induction ls with
  | nil => rfl
  | cons l ls ih =>
    unfold markedTexts at ih ⊢
    by_cases h : l.marker = marker
    · simp [h, ih]
    · simp [h, ih]

theorem texts_length (d : GitDiff) (marker : LineMarker) :
    (d.texts marker).length = (d.map fun c => (markedTexts marker c.hunkLines).length).sum := by
  unfold GitDiff.texts
  induction d with
  | nil => rfl
  | cons c d ih => rw [List.flatMap_cons, markedTexts_append, List.length_append, ih, List.map_cons, List.sum_cons]

theorem readDiff_counts (c : FileChange) : c.readDiff.added.length = (markedTexts .added c.hunkLines).length ∧
    c.readDiff.removed.length = (markedTexts .removed c.hunkLines).length := by
  constructor
  · exact congrArg List.length (map_filter_marker .added c.hunkLines)
  · exact congrArg List.length (map_filter_marker .removed c.hunkLines)

/-- What the report should list for a file of the gates. -/
def FileDiff.stat (f : FileDiff) : FileStat := ⟨f.path, f.added.length, f.removed.length⟩

theorem stats_eq {c : FileChange} (h : ∀ k ∈ c.hunks, k.lines ≠ []) :
    c.stats = ([c.readDiff].filter fun f => !f.lines.isEmpty).map FileDiff.stat := by
  have hlines : c.readDiff.lines = c.hunkLines.map fun l => (l.marker.char, l.text) := rfl
  unfold FileChange.stats
  cases hhunks : c.hunks with
  | nil =>
    have hnil : c.hunkLines = [] := by
      unfold FileChange.hunkLines
      rw [hhunks]
      rfl
    simp [hlines, hnil]
  | cons k ks =>
    rw [hhunks, List.forall_mem_cons] at h
    have hne : c.hunkLines ≠ [] := by
      unfold FileChange.hunkLines
      rw [hhunks, List.flatMap_cons]
      exact List.append_ne_nil_of_left_ne_nil h.1 _
    have hpath := FileChange.readPath_of_hunks (c := c) (by simp [hhunks])
    obtain ⟨hadded, hremoved⟩ := readDiff_counts c
    have hstat : c.readDiff.stat = c.stat := by
      unfold FileDiff.stat FileChange.stat FileStat.addLines
      rw [hadded, hremoved, Nat.zero_add, Nat.zero_add]
      exact congrArg (fun path => FileStat.mk path _ _) hpath
    have hfilled : c.hunkLines.isEmpty = false := by simpa using hne
    rw [List.filter_singleton]
    simp [hlines, hfilled, hstat]

theorem stats_sections {d : GitDiff} (hd : d.HunksFilled) :
    d.flatMap FileChange.stats = ((d.map FileChange.readDiff).filter fun f => !f.lines.isEmpty).map FileDiff.stat := by
  induction d with
  | nil => rfl
  | cons c d ih =>
    unfold GitDiff.HunksFilled at hd
    rw [List.forall_mem_cons] at hd
    rw [List.flatMap_cons, ih hd.2, stats_eq hd.1, List.map_cons, ← List.map_append, ← List.filter_append,
      List.singleton_append]

/-- Files without lines add nothing to a total. -/
theorem sum_filter_lines {count : FileDiff → Nat} (files : List FileDiff) (h : ∀ f ∈ files, f.lines = [] → count f = 0) :
    ((files.filter fun f => !f.lines.isEmpty).map count).sum = (files.map count).sum := by
  induction files with
  | nil => rfl
  | cons f files ih =>
    rw [List.forall_mem_cons] at h
    rw [List.filter_cons, List.map_cons, List.sum_cons, ← ih h.2]
    split
    · rfl
    · next hf =>
      have hempty : f.lines = [] := by simpa using hf
      rw [h.1 hempty, Nat.zero_add]

theorem hunkLines_of_lines_nil {c : FileChange} (h : c.readDiff.lines = []) : c.hunkLines = [] := by
  have hlines : (c.hunkLines.map fun l => (l.marker.char, l.text)) = [] := h
  exact List.map_eq_nil_iff.mp hlines

/-- As many texts are shown as there are exactly when none is hidden. -/
theorem shown_length_iff (mark : Char) (texts : List Str) :
    (texts.filter fun t => !hiddenBy mark t).length = texts.length ↔ ∀ t ∈ texts, hiddenBy mark t = false := by
  rw [List.length_filter_eq_length_iff]
  simp only [Bool.not_eq_true']

theorem patchLineStats_render {d : GitDiff} (hl : ∀ c ∈ d, c.LinesUnbroken) :
    (patchLineStats d.render).added = ((d.texts .added).filter fun t => !hiddenBy '+' t).length ∧
      (patchLineStats d.render).removed = ((d.texts .removed).filter fun t => !hiddenBy '-' t).length := by
  have hadded := markedLines_sections (by decide : LineMarker.added ≠ .context) d
  have hremoved := markedLines_sections (by decide : LineMarker.removed ≠ .context) d
  unfold patchLineStats
  rw [splitlines_render hl, foldl_read]
  dsimp only
  rw [Nat.zero_add, Nat.zero_add]
  exact ⟨congrArg List.length hadded, congrArg List.length hremoved⟩

section

variable [UnicodeData]

theorem diffstat_render {d : GitDiff} (hl : ∀ c ∈ d, c.LinesUnbroken) (hc : d.Countable) :
    diffstat d.render = .ok (d.flatMap FileChange.stats) := by
  obtain ⟨st, hr, hf, -⟩ := readStats_sections d start_statIdle hc
  unfold readStats at hr
  rw [diffstat, splitlines_render hl, hr]
  show Except.ok st.files = _
  rw [hf]
  rfl

/-- Where the readers' lines are git's lines, they agree exactly when the counts convert and no line looks like a
label. -/
theorem readersAgree_unbroken_iff {d : GitDiff} (hd : d.HunksFilled) (hl : ∀ c ∈ d, c.LinesUnbroken) :
    ReadersAgree d.render ↔ d.Countable ∧ d.ShowsLines := by
  by_cases hc : d.Countable
  · have hparse := parseUnifiedDiff_render hl hc
    have hstat := diffstat_render hl hc
    rw [stats_sections hd] at hstat
    obtain ⟨hadded, hremoved⟩ := patchLineStats_render hl
    have hfiles : ∀ (count : FileDiff → Nat) {marker : LineMarker},
        (∀ c : FileChange, count c.readDiff = (markedTexts marker c.hunkLines).length) →
        ((d.map FileChange.readDiff).map count).sum = (d.texts marker).length := by
      intro count marker hcount
      rw [texts_length, List.map_map]
      exact congrArg List.sum (List.map_congr_left fun c _ => hcount c)
    have hzero : ∀ (count : FileDiff → Nat) {marker : LineMarker},
        (∀ c : FileChange, count c.readDiff = (markedTexts marker c.hunkLines).length) →
        ∀ f ∈ d.map FileChange.readDiff, f.lines = [] → count f = 0 := by
      intro count marker hcount f hf hnil
      obtain ⟨c, -, rfl⟩ := List.mem_map.mp hf
      rw [hcount c, hunkLines_of_lines_nil hnil]
      rfl
    have hreadAdded := hfiles (fun f => f.added.length) fun c => (readDiff_counts c).1
    have hreadRemoved := hfiles (fun f => f.removed.length) fun c => (readDiff_counts c).2
    have hstatAdded := sum_filter_lines _ (hzero (fun f => f.added.length) fun c => (readDiff_counts c).1)
    have hstatRemoved := sum_filter_lines _ (hzero (fun f => f.removed.length) fun c => (readDiff_counts c).2)
    have hshown := shown_length_iff '+' (d.texts .added)
    have hshown' := shown_length_iff '-' (d.texts .removed)
    unfold GitDiff.ShowsLines
    rw [and_iff_right hc, ← hshown, ← hshown']
    constructor
    · rintro ⟨files, stats, hf, -, -, -, -, ha, hr⟩
      rw [hparse] at hf
      obtain rfl := Except.ok.inj hf
      rw [hadded, hreadAdded] at ha
      rw [hremoved, hreadRemoved] at hr
      exact ⟨ha, hr⟩
    · rintro ⟨ha, hr⟩
      refine ⟨_, _, hparse, hstat, ?_, ?_, ?_, ?_, ?_⟩
      · rw [List.map_map]
        rfl
      · rw [List.map_map, hadded, ha, ← hreadAdded]
        exact hstatAdded.symm
      · rw [List.map_map, hremoved, hr, ← hreadRemoved]
        exact hstatRemoved.symm
      · rw [hadded, ha, hreadAdded]
      · rw [hremoved, hr, hreadRemoved]
  · obtain ⟨e, he⟩ := parseUnifiedDiff_render_error hl hc
    refine iff_of_false ?_ fun h => hc h.1
    rintro ⟨files, stats, hf, -⟩
    rw [he] at hf
    cases hf

end

/-! ## Diffs with CRLF endings -/

theorem dropCr_hidden (mark : Char) (hmark : mark ≠ '\r') (t : Str) :
    hiddenBy mark (dropCr t) = hiddenBy mark t := by
  unfold hiddenBy
  rcases dropCr_cases t with h | h
  · rw [h]
  · conv_rhs => rw [h]
    rw [Bool.eq_iff_iff, startsWith_iff, startsWith_iff]
    constructor
    · intro hp
      exact hp.trans (List.prefix_append _ _)
    · intro hp
      rcases List.prefix_concat_iff.mp hp with heq | hp
      · have hlast := congrArg List.getLast? heq
        rw [List.getLast?_concat] at hlast
        exact absurd (Option.some.inj hlast) hmark
      · exact hp

theorem dropCr_hunkLines (c : FileChange) : c.dropCr.hunkLines = c.hunkLines.map HunkLine.dropCr := by
  unfold FileChange.hunkLines FileChange.hunks FileChange.dropCr
  cases c.body with
  | binary => rfl
  | hunks hs =>
    dsimp only
    rw [List.flatMap_map, List.map_flatMap]
    rfl

theorem dropCr_hunks (c : FileChange) : c.dropCr.hunks = c.hunks.map Hunk.dropCr := by
  unfold FileChange.hunks FileChange.dropCr
  cases c.body with
  | binary => rfl
  | hunks hs => rfl

theorem markedTexts_dropCr (marker : LineMarker) (ls : List HunkLine) :
    markedTexts marker (ls.map HunkLine.dropCr) = (markedTexts marker ls).map dropCr := by
  induction ls with
  | nil => rfl
  | cons l ls ih =>
    unfold markedTexts at ih ⊢
    by_cases h : l.marker = marker
    · simp [HunkLine.dropCr, h, ih]
    · simp [HunkLine.dropCr, h, ih]

theorem texts_dropCr (d : GitDiff) (marker : LineMarker) :
    GitDiff.texts (d.map FileChange.dropCr) marker = (d.texts marker).map dropCr := by
  unfold GitDiff.texts
  rw [List.flatMap_map, ← markedTexts_dropCr, List.map_flatMap]
  simp only [dropCr_hunkLines]

theorem showsLines_dropCr (d : GitDiff) : GitDiff.ShowsLines (d.map FileChange.dropCr) ↔ d.ShowsLines := by
  unfold GitDiff.ShowsLines
  rw [texts_dropCr, texts_dropCr, List.forall_mem_map, List.forall_mem_map]
  simp only [dropCr_hidden '+' (by decide), dropCr_hidden '-' (by decide)]

theorem countable_dropCr (d : GitDiff) : GitDiff.Countable (d.map FileChange.dropCr) ↔ d.Countable := by
  unfold GitDiff.Countable Hunk.Countable
  simp only [List.forall_mem_map, dropCr_hunks, Hunk.dropCr_counts]

theorem hunksFilled_dropCr {d : GitDiff} (h : d.HunksFilled) : GitDiff.HunksFilled (d.map FileChange.dropCr) := by
  intro x hx y hy
  obtain ⟨c, hc, rfl⟩ := List.mem_map.mp hx
  rw [dropCr_hunks] at hy
  obtain ⟨k, hk, rfl⟩ := List.mem_map.mp hy
  exact fun hnil => h c hc k hk (List.map_eq_nil_iff.mp hnil)

section

variable [UnicodeData]

theorem readersAgree_congr {patch patch' : Str} (h : splitlines patch = splitlines patch') :
    ReadersAgree patch ↔ ReadersAgree patch' := by
  unfold ReadersAgree parseUnifiedDiff diffstat patchLineStats
  rw [h]

theorem readersAgree_ended_iff {d : GitDiff} (hd : d.HunksFilled) (hl : ∀ c ∈ d, c.LinesEnded) :
    ReadersAgree d.render ↔ d.Countable ∧ d.ShowsLines := by
  have hunbroken : ∀ c ∈ d.map FileChange.dropCr, c.LinesUnbroken := by
    intro x hx
    obtain ⟨c, hc, rfl⟩ := List.mem_map.mp hx
    exact hl c hc
  have hlines : splitlines d.render = splitlines (GitDiff.render (d.map FileChange.dropCr)) := by
    rw [splitlines_render_cr hl, splitlines_render hunbroken]
  rw [readersAgree_congr hlines, readersAgree_unbroken_iff (hunksFilled_dropCr hd) hunbroken, countable_dropCr,
    showsLines_dropCr]

/-- The three readers agree on every diff whose lines they cut where git ended them, whose counts convert and of which no
line looks like a label; of the diffs with such lines they agree on no other one. -/
theorem readersAgree_of_shown (d : GitDiff) (hd : d.HunksFilled) :
    ((∀ c ∈ d, c.LinesEnded) ∧ d.Countable ∧ d.ShowsLines → ReadersAgree d.render) ∧
      ((∀ c ∈ d, c.LinesEnded) → ReadersAgree d.render → d.Countable ∧ d.ShowsLines) :=
  ⟨fun h => (readersAgree_ended_iff hd h.1).mpr h.2, fun hl => (readersAgree_ended_iff hd hl).mp⟩

end

/-- A query that loses a line; the line is a comment when its text begins with `--`. -/
def queryEdit (text : Str) (h : '\n' ∉ text) : FileChange where
  kind := .modify ⟨"query.sql".toList, by decide, by decide⟩
  oldMode := .regular
  newMode := .regular
  index := none
  similarity := 0
  body := .hunks [{
    oldStart := 1
    newStart := 1
    heading := none
    lines := [⟨.removed, text, false, h⟩, ⟨.context, "SELECT 1;\r".toList, false, by decide⟩]
    headingOneLine := noHeading_oneLine }]

theorem queryEdit_agrees :
    @ReadersAgree asciiData (GitDiff.render [queryEdit "DROP TABLE t;\r".toList (by decide)]) := by
  have hfilled : GitDiff.HunksFilled [queryEdit "DROP TABLE t;\r".toList (by decide)] := by
    unfold GitDiff.HunksFilled
    decide
  have hended : ∀ c ∈ [queryEdit "DROP TABLE t;\r".toList (by decide)], c.LinesEnded := by
    intro c hc k hk
    rw [List.mem_singleton.mp hc] at hk
    rw [List.mem_singleton.mp hk]
    exact ⟨by decide, by decide⟩
  have hcount : GitDiff.Countable [queryEdit "DROP TABLE t;\r".toList (by decide)] := by
    intro c hc k hk
    rw [List.mem_singleton.mp hc] at hk
    rw [List.mem_singleton.mp hk]
    exact ⟨Nat.lt_of_lt_of_le (by decide : 2 < 10 ^ 1) (Nat.pow_le_pow_right (by decide) (by decide)),
      Nat.lt_of_lt_of_le (by decide : 1 < 10 ^ 1) (Nat.pow_le_pow_right (by decide) (by decide))⟩
  have hshown : GitDiff.ShowsLines [queryEdit "DROP TABLE t;\r".toList (by decide)] := by
    unfold GitDiff.ShowsLines
    decide
  exact (@readersAgree_of_shown asciiData _ hfilled).1 ⟨hended, hcount, hshown⟩

/-- The reviewer is shown no removed line, the report and the gates count one. -/
theorem queryComment_disagrees :
    ¬ @ReadersAgree asciiData (GitDiff.render [queryEdit "-- drops the table".toList (by decide)]) := by
  have hstat : @diffstat asciiData (GitDiff.render [queryEdit "-- drops the table".toList (by decide)]) =
      .ok [⟨"query.sql".toList, 0, 1⟩] := by rfl
  rintro ⟨files, stats, -, hs, -, -, hremoved, -⟩
  rw [hstat] at hs
  obtain rfl := Except.ok.inj hs
  exact absurd hremoved (by decide +kernel)

end FailureOrchestrator
