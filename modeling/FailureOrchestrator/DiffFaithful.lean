import FailureOrchestrator.ReadablePath

namespace FailureOrchestrator

theorem consLine_unbroken {c : Char} (hc : isLineBreak c = false) {ls : List Str}
    (h : ∀ l ∈ ls, Unbroken l) : ∀ l ∈ consLine c ls, Unbroken l := by
  intro l hl
  cases ls with
  | nil =>
    rw [List.mem_singleton.mp hl]
    exact .cons hc .nil
  | cons x xs =>
    rcases List.mem_cons.mp hl with rfl | hl
    · exact .cons hc (h x (by simp))
    · exact h l (by simp [hl])

theorem splitlines_unbroken (s : Str) : ∀ l ∈ splitlines s, Unbroken l := by
  induction s using splitlines.induct with
  | case1 => simp [splitlines]
  | case2 rest ih =>
    rw [splitlines]
    intro l hl
    rcases List.mem_cons.mp hl with rfl | hl
    · exact .nil
    · exact ih l hl
  | case3 c rest hshape hc ih =>
    rw [splitlines, if_pos hc]
    · intro l hl
      rcases List.mem_cons.mp hl with rfl | hl
      · exact .nil
      · exact ih l hl
    · exact hshape
  | case4 c rest hshape hc ih =>
    rw [splitlines, if_neg hc]
    · exact consLine_unbroken (by simpa using hc) ih
    · exact hshape

/-- Every hunk line that a file keeps was cut out by `splitlines`. -/
def FileDiff.Whole (f : FileDiff) : Prop := ∀ p ∈ f.lines, Unbroken p.2

def DiffState.Whole (st : DiffState) : Prop := ∀ f ∈ st.files, f.Whole

theorem whole_of_lines_nil {f : FileDiff} (h : f.lines = []) : f.Whole := by
  intro p hp
  simp [h] at hp

theorem whole_openFile {st : DiffState} (h : st.Whole) {f : FileDiff} (hf : f.Whole) :
    (st.openFile f).Whole := by
  intro g hg
  rcases List.mem_append.mp hg with hg | hg
  · exact h g hg
  · have hgf : g = f := by simpa [DiffState.openFile] using hg
    exact hgf ▸ hf

/-- Updating the current file without touching its lines. -/
theorem whole_update {st st' : DiffState} (h : st.Whole) (hd : st'.done = st.done)
    (hc : ∀ g ∈ st'.current, ∃ f ∈ st.current, g.lines = f.lines) : st'.Whole := by
  intro g hg
  unfold DiffState.files at hg
  rw [hd] at hg
  rcases List.mem_append.mp hg with hg | hg
  · exact h g (List.mem_append_left _ hg)
  · obtain ⟨f, hf, hlines⟩ := hc g (by simpa using hg)
    have hw : f.Whole := h f (List.mem_append_right _ (by simpa using hf))
    intro p hp
    rw [hlines] at hp
    exact hw p hp

theorem whole_same {st st' : DiffState} (h : st.Whole) (hd : st'.done = st.done)
    (hc : st'.current = st.current) : st'.Whole :=
  whole_update h hd fun g hg => ⟨g, hc ▸ hg, rfl⟩

theorem whole_map {st st' : DiffState} (h : st.Whole) (hd : st'.done = st.done)
    {φ : FileDiff → FileDiff} (hc : st'.current = st.current.map φ) (hφ : ∀ f, (φ f).lines = f.lines) :
    st'.Whole := by
  refine whole_update h hd fun g hg => ?_
  rw [hc] at hg
  obtain ⟨f, hf, rfl⟩ := Option.map_eq_some_iff.mp hg
  exact ⟨f, hf, hφ f⟩

theorem newFileStep_whole {st : DiffState} (h : st.Whole) (raw : Str) : (newFileStep st raw).Whole := by
  unfold newFileStep
  dsimp only
  split
  · next d hcur _ =>
    refine whole_update h rfl fun g hg => ⟨d, hcur, ?_⟩
    rw [Option.map_some, Option.mem_some_iff] at hg
    rw [← hg]
    simp only [apply_ite FileDiff.lines, ite_self]
  · exact whole_map (whole_openFile h (whole_of_lines_nil rfl)) rfl rfl fun _ => rfl

theorem hunkStep_whole {st st' : DiffState} {d : FileDiff} (hd : st.current = some d) (h : st.Whole) {raw : Str}
    (hraw : Unbroken raw) (hs : hunkStep st d raw = some st') : st'.Whole := by
  unfold hunkStep at hs
  split at hs
  · rw [← Option.some.inj hs]
    exact h
  · dsimp only at hs
    split at hs
    · rw [← Option.some.inj hs]
      intro g hg
      rcases List.mem_append.mp hg with hg | hg
      · exact h g (List.mem_append_left _ hg)
      · have hgd : g = d.addLine (raw.head?.getD ' ') raw.tail := by simpa using hg
        have hdw : d.Whole := h d (by simp [DiffState.files, hd])
        intro p hp
        rw [hgd] at hp
        rcases List.mem_append.mp hp with hp | hp
        · exact hdw p hp
        · rw [List.mem_singleton.mp hp]
          exact fun c hc => hraw c (List.mem_of_mem_tail hc)
    · simp at hs

section

variable [UnicodeData]

theorem hunkHeaderStep_whole {st st' : DiffState} (h : st.Whole) {raw : Str}
    (hs : hunkHeaderStep st raw = .ok st') : st'.Whole := by
  have hopen : (if st.current.isNone then st.openFile { path := [] } else st).Whole := by
    split
    · exact whole_openFile h (whole_of_lines_nil rfl)
    · exact h
  unfold hunkHeaderStep at hs
  dsimp only at hs
  cases hc : hunkCounts raw with
  | error e => rw [hc] at hs; cases hs
  | ok counts =>
    rw [hc] at hs
    cases counts with
    | none => cases hs; exact whole_same hopen rfl rfl
    | some p => cases hs; exact whole_same hopen rfl rfl

theorem headerStep_whole {st st' : DiffState} (h : st.Whole) {raw : Str}
    (hs : headerStep st raw = .ok st') : st'.Whole := by
  unfold headerStep at hs
  split at hs
  · cases hs
    exact whole_same (whole_openFile h (whole_of_lines_nil rfl)) rfl rfl
  split at hs
  · cases hs
    exact whole_map h rfl rfl fun _ => rfl
  split at hs
  · cases hs
    exact whole_map h rfl rfl fun _ => rfl
  split at hs
  · cases hs
    exact whole_map h rfl rfl fun _ => rfl
  split at hs
  · cases hs
    exact whole_same h rfl rfl
  split at hs
  · cases hs
    exact newFileStep_whole h raw
  split at hs
  · exact hunkHeaderStep_whole h hs
  · cases hs
    exact h

theorem diffStep_whole {st st' : DiffState} (h : st.Whole) {raw : Str} (hraw : Unbroken raw)
    (hs : diffStep st raw = .ok st') : st'.Whole := by
  have hend : st.endHunk.Whole := by
    intro f hf
    rw [endHunk_files] at hf
    exact h f hf
  unfold diffStep at hs
  dsimp only at hs
  split at hs
  · next d _ hcur =>
    split at hs
    · next hstep =>
      cases hs
      exact hunkStep_whole hcur hend hraw hstep
    · have hclosed : DiffState.Whole { st.endHunk with inHunk := false } := whole_same hend rfl rfl
      exact headerStep_whole hclosed hs
  · exact headerStep_whole hend hs

theorem readLines_whole {ls : List Str} (hls : ∀ l ∈ ls, Unbroken l) {st st' : DiffState} (h : st.Whole)
    (hs : readLines st ls = .ok st') : st'.Whole := by
  induction ls generalizing st with
  | nil =>
    cases hs
    exact h
  | cons l ls ih =>
    cases hl : diffStep st l with
    | error e => rw [readLines_cons_error hl] at hs; cases hs
    | ok mid =>
      rw [readLines_cons hl] at hs
      exact ih (fun x hx => hls x (by simp [hx])) (diffStep_whole h (hls l (by simp)) hl) hs

/-- No line that the reader reports holds a separator of `splitlines`, whatever the text is. -/
theorem parseUnifiedDiff_whole {patch : Str} {files : List FileDiff}
    (h : parseUnifiedDiff patch = .ok files) : ∀ f ∈ files, f.Whole := by
  unfold parseUnifiedDiff at h
  cases hr : (splitlines patch).foldlM diffStep {} with
  | error e => rw [hr] at h; cases h
  | ok st =>
    rw [hr] at h
    cases h
    have start : DiffState.Whole {} := by
      intro f hf
      simp [DiffState.files] at hf
    exact readLines_whole (splitlines_unbroken patch) start hr

namespace FileChange

/-- A section that the reader reports as git meant it. -/
structure Readable (c : FileChange) : Prop where
  lines : c.LinesUnbroken
  counts : ∀ h ∈ c.hunks, h.Countable
  path : c.PathReadable
  source : c.SourceReadable

end FileChange

theorem parseUnifiedDiff_of_readable {d : GitDiff} (h : ∀ c ∈ d, c.Readable) :
    parseUnifiedDiff d.render = .ok (d.map FileChange.fileDiff) := by
  rw [parseUnifiedDiff_render (fun c hc => (h c hc).lines) fun c hc => (h c hc).counts]
  refine congrArg _ (List.map_congr_left fun c hc => ?_)
  exact c.readDiff_iff.mpr ⟨(h c hc).path, (h c hc).source⟩

theorem hunkLines_unbroken_of_faithful {d : GitDiff}
    (h : parseUnifiedDiff d.render = .ok (d.map FileChange.fileDiff)) :
    ∀ c ∈ d, ∀ k ∈ c.hunks, ∀ l ∈ k.lines, Unbroken l.text := by
  intro c hc k hk l hl
  have hline : l ∈ c.hunkLines := List.mem_flatMap.mpr ⟨k, hk, hl⟩
  have hwhole := parseUnifiedDiff_whole h c.fileDiff (List.mem_map_of_mem hc)
  exact hwhole (l.marker.char, l.text) (List.mem_map_of_mem hline)

/-- The reader is faithful on every readable diff, and on no other one whose hunk headings
hold no separator. -/
theorem parseUnifiedDiff_faithful (d : GitDiff) :
    ((∀ c ∈ d, c.Readable) → parseUnifiedDiff d.render = .ok (d.map FileChange.fileDiff)) ∧
    ((∀ c ∈ d, ∀ k ∈ c.hunks, ∀ t ∈ k.heading, Unbroken t) →
      parseUnifiedDiff d.render = .ok (d.map FileChange.fileDiff) → ∀ c ∈ d, c.Readable) := by
  refine ⟨parseUnifiedDiff_of_readable, fun hhead hread => ?_⟩
  have hlines : ∀ c ∈ d, c.LinesUnbroken := fun c hc k hk =>
    ⟨hhead c hc k hk, hunkLines_unbroken_of_faithful hread c hc k hk⟩
  have hcount : d.Countable := by
    by_contra hnot
    obtain ⟨e, he⟩ := parseUnifiedDiff_render_error hlines hnot
    rw [he] at hread
    cases hread
  rw [parseUnifiedDiff_render hlines hcount] at hread
  have hsame := List.map_inj_left.mp (Except.ok.inj hread)
  intro c hc
  obtain ⟨hpath, hsource⟩ := c.readDiff_iff.mp (hsame c hc)
  exact ⟨hlines c hc, hcount c hc, hpath, hsource⟩

end

def sampleTest : GitPath := ⟨"tests/test_a.py".toList, by decide, by decide⟩

/-- A modified test whose only change removes an assertion indented by a form feed. -/
def formFeedRemoval : FileChange where
  kind := .modify sampleTest
  oldMode := .regular
  newMode := .regular
  index := none
  similarity := 0
  body := .hunks [⟨1, 0, none, [⟨.removed, "\x0cassert total == 3".toList, false, by decide⟩], noHeading_oneLine⟩]

theorem formFeedRemoval_read : @parseUnifiedDiff asciiData (GitDiff.render [formFeedRemoval]) =
    .ok [{ path := "tests/test_a.py".toList, removed := [[]], lines := [('-', [])] }] := by
  rfl

/-- The separator cuts the line and the removed assertion is reported as an empty line. -/
theorem parseUnifiedDiff_not_faithful : ¬ ∀ (u : UnicodeData) (d : GitDiff),
    @parseUnifiedDiff u d.render = .ok (d.map FileChange.fileDiff) := by
  intro h
  have hread := (h asciiData [formFeedRemoval]).symm.trans formFeedRemoval_read
  have hremoved := congrArg (fun fs => fs.map FileDiff.removed) (Except.ok.inj hread)
  exact absurd hremoved (by decide)

end FailureOrchestrator
