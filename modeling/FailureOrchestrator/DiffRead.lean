import FailureOrchestrator.SectionPath

namespace FailureOrchestrator

namespace FileChange

/-- A file that stays is never taken for a deleted one. -/
theorem labelPath_newLabel_ne_devNull {c : FileChange} (h : c.isDelete = false) :
    labelPath c.newLabel ≠ "/dev/null".toList := by
  have label : c.newLabel = quoteName "b/".toList c.kind.new.name := by
    unfold newLabel
    split
    next p hk => simp [isDelete, hk] at h
    next => rfl
  rw [label]
  intro heq
  by_cases hp : Plain c.kind.new.name
  · rw [labelPath_plain (Or.inr rfl) hp] at heq
    obtain ⟨t, ht⟩ := List.rdropWhile_prefix isSpace c.kind.new.name
    have first : c.kind.new.name = '/' :: ("dev/null".toList ++ t) := by
      rw [← ht]
      exact congrArg (· ++ t) heq
    exact c.kind.new.relative (by rw [first]; rfl)
  · rw [labelPath_quoted (Or.inr rfl) hp, quoteName_quoted hp] at heq
    have hhead : some '"' = some '/' := congrArg List.head? heq
    exact absurd hhead (by decide)

theorem newFileStep_label {st : DiffState} {d : FileDiff} (hcur : st.current = some d)
    (hgit : st.gitHeader = true) {label path : Str} {deleted : Bool}
    (hdel : (labelPath label == "/dev/null".toList) = deleted)
    (hpath : (if deleted then st.pendingOld.getD [] else labelPath label) = path) :
    newFileStep st ("+++ ".toList ++ withTab label) =
      { st with
        current := some { d with
          path := if path.isEmpty then d.path else path
          deleted := d.deleted || deleted }
        gitHeader := false } := by
  have text : List.drop 4 ("+++ ".toList ++ withTab label) = withTab label := rfl
  unfold labelPath at hdel hpath
  unfold newFileStep
  simp only [text, hdel, hpath, hcur, hgit, Option.map_some]
  cases path <;> rfl

variable [UnicodeData]

/-- The two label lines set the path, or leave it when the label reads as empty. -/
theorem readLines_labels {st : DiffState} {d : FileDiff} (hin : st.inHunk = false)
    (hcur : st.current = some d) (hgit : st.gitHeader = true) (c : FileChange) (ms : List Str) :
    ∃ st', readLines st (("--- ".toList ++ withTab c.oldLabel) :: ("+++ ".toList ++ withTab c.newLabel) :: ms) =
        readLines st' ms ∧ st'.inHunk = false ∧ st'.done = st.done ∧
      st'.current = some { d with
        path := if (labelPath c.namingLabel).isEmpty then d.path else labelPath c.namingLabel
        deleted := d.deleted || c.isDelete } := by
  let mid : DiffState := { st with pendingOld := some (labelPath c.oldLabel) }
  have hold : diffStep st ("--- ".toList ++ withTab c.oldLabel) = .ok mid := by
    rw [diffStep_closed hin, headerStep_oldLabel]
    rfl
  have hmin : mid.inHunk = false := hin
  have hmcur : mid.current = some d := hcur
  have hmgit : mid.gitHeader = true := hgit
  have hnew : diffStep mid ("+++ ".toList ++ withTab c.newLabel) =
      .ok (newFileStep mid ("+++ ".toList ++ withTab c.newLabel)) := by
    rw [diffStep_closed hmin, headerStep_newLabel]
  have named : ∀ {path : Str} {deleted : Bool}, (labelPath c.newLabel == "/dev/null".toList) = deleted →
      (if deleted then labelPath c.oldLabel else labelPath c.newLabel) = path →
      ∃ st', readLines st (("--- ".toList ++ withTab c.oldLabel) :: ("+++ ".toList ++ withTab c.newLabel) :: ms) =
        readLines st' ms ∧ st'.inHunk = false ∧ st'.done = st.done ∧
      st'.current = some { d with
        path := if path.isEmpty then d.path else path
        deleted := d.deleted || deleted } := by
    intro path deleted hdel hpath
    have hstep := newFileStep_label hmcur hmgit hdel hpath
    refine ⟨newFileStep mid ("+++ ".toList ++ withTab c.newLabel), ?_, ?_⟩
    · rw [readLines_cons hold, readLines_cons hnew]
    · rw [hstep]
      exact ⟨hin, rfl, rfl⟩
  cases hdel : c.isDelete with
  | false =>
    have label : c.namingLabel = c.newLabel := by
      unfold namingLabel
      split
      next p hk => simp [isDelete, hk] at hdel
      next => rfl
    rw [label]
    exact named (beq_eq_false_iff_ne.mpr (labelPath_newLabel_ne_devNull hdel)) rfl
  | true =>
    obtain ⟨p, hk⟩ : ∃ p, c.kind = .delete p := by
      unfold isDelete at hdel
      split at hdel
      next p hk => exact ⟨p, hk⟩
      next => simp at hdel
    have label : c.namingLabel = c.oldLabel := by simp [namingLabel, hk]
    have devNull : c.newLabel = "/dev/null".toList := by simp [newLabel, hk]
    rw [label]
    refine named ?_ rfl
    rw [devNull]
    decide

/-- The file as the header lines before the hunks leave it. -/
def headed (c : FileChange) : FileDiff :=
  { path := c.movedPath, deleted := c.isDelete, renamedFrom := c.readSource }

theorem readLines_headers {st : DiffState} (hidle : st.Idle) (c : FileChange) (ms : List Str) :
    ∃ st', readLines st (c.diffGitLine :: (c.modeLines ++ c.moveLines ++ c.indexLines ++ ms)) =
        readLines st' ms ∧ st'.inHunk = false ∧ st'.done = st.files ∧ st'.current = some c.headed ∧
      st'.gitHeader = true := by
  let moded : DiffState := { opened st c with current := some { path := c.firstPath, deleted := c.isDelete } }
  let final : DiffState := { opened st c with current := some c.headed }
  have hin : (opened st c).inHunk = false := hidle
  have hmin : moded.inHunk = false := hidle
  have hfin : final.inHunk = false := hidle
  have hmode : readLines (opened st c) c.modeLines = .ok moded := by
    rw [readLines_modeLines hin rfl c]
    rfl
  have hmcur : moded.current = some { path := c.firstPath, deleted := c.isDelete } := rfl
  have hmove : readLines moded c.moveLines = .ok final := by
    rw [readLines_moveLines hmin hmcur rfl rfl]
    rfl
  refine ⟨final, ?_, hfin, ?_, rfl, rfl⟩
  · rw [readLines_cons (diffStep_diffGitLine hidle c), List.append_assoc, List.append_assoc,
      readLines_append hmode, readLines_append hmove, readLines_append (readLines_indexLines hfin c)]
  · show st.endHunk.files = st.files
    exact endHunk_files st

/-- A section whose counts convert is read as one file, and the next section starts afresh. -/
theorem readLines_section {st : DiffState} (hidle : st.Idle) {c : FileChange}
    (hc : ∀ h ∈ c.hunks, h.Countable) :
    ∃ st', readLines st c.render = .ok st' ∧ st'.files = st.files ++ [c.readDiff] ∧ st'.Idle := by
  obtain ⟨mid, hhead, hin, hdone, hcur, hgit⟩ := readLines_headers hidle c c.bodyLines
  have plainRead : c.hunks = [] → c.headed = c.readDiff := by
    intro hnil
    simp [headed, readDiff, fileDiff, hunkLines, readPath, hnil]
  have noHunk : c.hunks = [] → (∀ l ∈ c.bodyLines, Ignored l) →
      ∃ st', readLines st c.render = .ok st' ∧ st'.files = st.files ++ [c.readDiff] ∧ st'.Idle := by
    intro hnil hbody
    refine ⟨mid, ?_, ?_, idle_of_closed hin⟩
    · rw [render, hhead, readLines_ignored hin hbody]
    · rw [DiffState.files, hdone, hcur, plainRead hnil]
      rfl
  unfold hunks at noHunk hc
  unfold bodyLines at hhead noHunk
  cases hb : c.body with
  | binary =>
    rw [hb] at noHunk
    refine noHunk rfl fun l hl => ?_
    rw [List.mem_singleton.mp hl]
    exact ignored_of_head _ (by decide)
  | hunks hs =>
    rw [hb] at noHunk hhead hc
    cases hs with
    | nil => exact noHunk rfl (by simp)
    | cons h hs =>
      obtain ⟨lab, hlab, hlin, hldone, hlcur⟩ :=
        readLines_labels hin hcur hgit c ((h :: hs).flatMap Hunk.render)
      obtain ⟨st', hrun, hrdone, hrcur, hri⟩ := readLines_hunks (h :: hs) (idle_of_closed hlin) hlcur hc
      refine ⟨st', ?_, ?_, hri⟩
      · unfold render bodyLines
        rw [hb, hhead, hlab, hrun]
      · rw [DiffState.files, hrdone, hldone, hdone, hrcur, addLines_eq]
        simp [headed, readDiff, fileDiff, hunkLines, readPath, hunks, hb]

theorem readLines_section_error {st : DiffState} (hidle : st.Idle) {c : FileChange}
    (hc : ¬ ∀ h ∈ c.hunks, h.Countable) : ∃ e, readLines st c.render = .error e := by
  obtain ⟨mid, hhead, hin, _, hcur, hgit⟩ := readLines_headers hidle c c.bodyLines
  unfold hunks at hc
  unfold bodyLines at hhead
  cases hb : c.body with
  | binary => simp [hb] at hc
  | hunks hs =>
    rw [hb] at hhead hc
    cases hs with
    | nil => simp at hc
    | cons h hs =>
      obtain ⟨lab, hlab, hlin, _, hlcur⟩ :=
        readLines_labels hin hcur hgit c ((h :: hs).flatMap Hunk.render)
      obtain ⟨e, he⟩ := readLines_hunks_error (idle_of_closed hlin) hlcur hc
      refine ⟨e, ?_⟩
      unfold render bodyLines
      rw [hb, hhead, hlab, he]

end FileChange

/-- No count of the diff has more digits than the interpreter converts. -/
def GitDiff.Countable (d : GitDiff) : Prop := ∀ c ∈ d, ∀ h ∈ c.hunks, h.Countable

theorem readLines_sections [UnicodeData] (d : GitDiff) {st : DiffState} (hidle : st.Idle)
    (hc : d.Countable) :
    ∃ st', readLines st (d.flatMap FileChange.render) = .ok st' ∧
      st'.files = st.files ++ d.map FileChange.readDiff ∧ st'.Idle := by
  induction d generalizing st with
  | nil => exact ⟨st, rfl, by simp, hidle⟩
  | cons c d ih =>
    obtain ⟨mid, hm, hf, hi⟩ := FileChange.readLines_section hidle (hc c (by simp))
    obtain ⟨st', hr, hf', hi'⟩ := ih hi fun x hx => hc x (by simp [hx])
    refine ⟨st', ?_, ?_, hi'⟩
    · rw [List.flatMap_cons, readLines_append hm, hr]
    · simp [hf', hf]

theorem readLines_sections_error [UnicodeData] {d : GitDiff} {st : DiffState} (hidle : st.Idle)
    (hc : ¬ d.Countable) : ∃ e, readLines st (d.flatMap FileChange.render) = .error e := by
  induction d generalizing st with
  | nil => exact absurd (fun c hc => by simp at hc) hc
  | cons c d ih =>
    by_cases hh : ∀ h ∈ c.hunks, h.Countable
    · obtain ⟨mid, hm, _, hi⟩ := FileChange.readLines_section hidle hh
      have hrest : ¬ GitDiff.Countable d := by
        intro hd
        refine hc fun x hx => ?_
        rcases List.mem_cons.mp hx with rfl | hx
        · exact hh
        · exact hd x hx
      obtain ⟨e, he⟩ := ih hi hrest
      exact ⟨e, by rw [List.flatMap_cons, readLines_append hm, he]⟩
    · obtain ⟨e, he⟩ := FileChange.readLines_section_error hidle hh
      exact ⟨e, by rw [List.flatMap_cons, readLines_append_error he]⟩

theorem start_idle : DiffState.Idle {} := idle_of_closed rfl

/-- What the reader makes of any diff whose lines it cuts where git ended them. -/
theorem parseUnifiedDiff_render [UnicodeData] {d : GitDiff} (hl : ∀ c ∈ d, c.LinesUnbroken)
    (hc : d.Countable) : parseUnifiedDiff d.render = .ok (d.map FileChange.readDiff) := by
  obtain ⟨st, hr, hf, _⟩ := readLines_sections d start_idle hc
  unfold readLines at hr
  rw [parseUnifiedDiff, splitlines_render hl, hr]
  show Except.ok st.files = _
  rw [hf]
  rfl

theorem parseUnifiedDiff_render_error [UnicodeData] {d : GitDiff} (hl : ∀ c ∈ d, c.LinesUnbroken)
    (hc : ¬ d.Countable) : ∃ e, parseUnifiedDiff d.render = .error e := by
  obtain ⟨e, he⟩ := readLines_sections_error start_idle hc
  unfold readLines at he
  exact ⟨e, by rw [parseUnifiedDiff, splitlines_render hl, he]; rfl⟩

end FailureOrchestrator
