import FailureOrchestrator.GitDiffLines

namespace FailureOrchestrator

/-- A state that reads its next line as a header: no hunk is open, or its counts are used up. -/
def DiffState.Idle (st : DiffState) : Prop := st.endHunk.inHunk = false

theorem idle_of_closed {st : DiffState} (h : st.inHunk = false) : st.Idle := by
  simp [DiffState.Idle, DiffState.endHunk, h]

theorem endHunk_of_closed {st : DiffState} (h : st.inHunk = false) : st.endHunk = st := by
  simp [DiffState.endHunk, h]

@[simp] theorem endHunk_files (st : DiffState) : st.endHunk.files = st.files := by
  unfold DiffState.endHunk; split <;> rfl

@[simp] theorem endHunk_current (st : DiffState) : st.endHunk.current = st.current := by
  unfold DiffState.endHunk; split <;> rfl

@[simp] theorem endHunk_done (st : DiffState) : st.endHunk.done = st.done := by
  unfold DiffState.endHunk; split <;> rfl

@[simp] theorem endHunk_gitHeader (st : DiffState) : st.endHunk.gitHeader = st.gitHeader := by
  unfold DiffState.endHunk; split <;> rfl

/-- Header lines that the reader has no use for. -/
def Ignored (raw : Str) : Prop :=
  startsWithAny raw ["diff --git ", "deleted file mode", "rename from ", "rename to ", "--- ", "+++ ",
    "@@"] = false

instance (raw : Str) : Decidable (Ignored raw) := inferInstanceAs (Decidable (_ = false))

namespace FileDiff

/-- All lines of a hunk, one after another. -/
def addLines (d : FileDiff) (ls : List HunkLine) : FileDiff :=
  ls.foldl (fun d l => d.addLine l.marker.char l.text) d

end FileDiff

/-- The state after a counted hunk line of the current file. -/
def afterLine (st : DiffState) (d : FileDiff) (l : HunkLine) : DiffState :=
  { st with
    current := some (d.addLine l.marker.char l.text)
    oldLeft := if l.marker = .added then st.oldLeft else st.oldLeft - 1
    newLeft := if l.marker = .removed then st.newLeft else st.newLeft - 1 }

theorem noEolNote_ignored : Ignored noEolNote := by decide

def oldCountOf (ls : List HunkLine) : Nat := ls.countP fun l => decide (l.marker ≠ .added)

def newCountOf (ls : List HunkLine) : Nat := ls.countP fun l => decide (l.marker ≠ .removed)

theorem counts_cons_pos (l : HunkLine) (ls : List HunkLine) :
    0 < oldCountOf (l :: ls) ∨ 0 < newCountOf (l :: ls) := by
  cases hm : l.marker <;> simp [oldCountOf, newCountOf, hm]

theorem startsWith_header (h : Hunk) : ∃ t, h.header = '@' :: '@' :: t := ⟨_, rfl⟩

variable [UnicodeData]

/-- The lines of a text read one after another from a state of the loop. -/
def readLines (st : DiffState) (ls : List Str) : Except PyError DiffState := ls.foldlM diffStep st

@[simp] theorem readLines_nil (st : DiffState) : readLines st [] = .ok st := rfl

theorem readLines_cons {st st' : DiffState} {l : Str} (h : diffStep st l = .ok st') (ls : List Str) :
    readLines st (l :: ls) = readLines st' ls := by
  simp [readLines, h, bind, Except.bind]

theorem readLines_cons_error {st : DiffState} {l : Str} {e : PyError} (h : diffStep st l = .error e)
    (ls : List Str) : readLines st (l :: ls) = .error e := by
  simp [readLines, h, bind, Except.bind]

theorem readLines_append {st st' : DiffState} {ls : List Str} (h : readLines st ls = .ok st')
    (ms : List Str) : readLines st (ls ++ ms) = readLines st' ms := by
  simp only [readLines, List.foldlM_append] at *
  simp [h, bind, Except.bind]

theorem readLines_append_error {st : DiffState} {ls : List Str} {e : PyError}
    (h : readLines st ls = .error e) (ms : List Str) : readLines st (ls ++ ms) = .error e := by
  simp only [readLines, List.foldlM_append] at *
  simp [h, bind, Except.bind]

theorem diffStep_idle {st : DiffState} (h : st.Idle) (raw : Str) :
    diffStep st raw = headerStep st.endHunk raw := by
  have hh : st.endHunk.inHunk = false := h
  simp [diffStep, hh]

theorem diffStep_closed {st : DiffState} (h : st.inHunk = false) (raw : Str) :
    diffStep st raw = headerStep st raw := by
  rw [diffStep_idle (idle_of_closed h), endHunk_of_closed h]

theorem headerStep_ignored {raw : Str} (h : Ignored raw) (st : DiffState) : headerStep st raw = .ok st := by
  simp only [Ignored, startsWithAny, List.any_cons, List.any_nil, Bool.or_eq_false_iff] at h
  obtain ⟨h1, h2, h3, h4, h5, h6, h7, _⟩ := h
  simp only [headerStep, h1, h2, h3, h4, h5, h6, h7, Bool.false_and, Bool.false_eq_true, ↓reduceIte]

theorem readLines_ignored {st : DiffState} (hst : st.inHunk = false) {ls : List Str}
    (h : ∀ l ∈ ls, Ignored l) : readLines st ls = .ok st := by
  induction ls with
  | nil => rfl
  | cons l ls ih =>
    have hl : diffStep st l = .ok st := by
      rw [diffStep_closed hst, headerStep_ignored (h l (by simp))]
    rw [readLines_cons hl, ih fun x hx => h x (by simp [hx])]

theorem diffStep_hunkLine {st : DiffState} {d : FileDiff} (hin : st.inHunk = true)
    (hcount : st.counted = true) (hcur : st.current = some d) (left : 0 < st.oldLeft ∨ 0 < st.newLeft)
    (l : HunkLine) : diffStep st (l.marker.char :: l.text) = .ok (afterLine st d l) := by
  have hopen : st.endHunk = st := by
    have hnot : ¬ (st.oldLeft ≤ 0 ∧ st.newLeft ≤ 0) := by omega
    simp only [DiffState.endHunk, hin, hcount, Bool.and_self, Bool.true_and, Bool.and_eq_true,
      decide_eq_true_eq, if_neg hnot]
  have hstep : hunkStep st d (l.marker.char :: l.text) = some (afterLine st d l) := by
    cases hm : l.marker <;>
      simp [hunkStep, startsWith_cons, LineMarker.char, hcount, afterLine, hm]
  simp [diffStep, hopen, hin, hcur, hstep]

theorem diffStep_noEolNote {st : DiffState} {d : FileDiff} (hin : st.inHunk = true)
    (hcount : st.counted = true) (hcur : st.current = some d)
    (left : 0 < st.oldLeft ∨ 0 < st.newLeft) : diffStep st noEolNote = .ok st := by
  have hopen : st.endHunk = st := by
    have hnot : ¬ (st.oldLeft ≤ 0 ∧ st.newLeft ≤ 0) := by omega
    simp only [DiffState.endHunk, hin, hcount, Bool.and_self, Bool.true_and, Bool.and_eq_true,
      decide_eq_true_eq, if_neg hnot]
  have hstep : hunkStep st d noEolNote = some st := by
    have hs : startsWith noEolNote ['\\'] = true := by decide
    simp [hunkStep, hs]
  simp [diffStep, hopen, hin, hcur, hstep]

/-- A hunk with as many lines as its counters say is read completely and leaves an idle state. -/
theorem readLines_hunkLines (ls : List HunkLine) {st : DiffState} {d : FileDiff}
    (hin : st.inHunk = true) (hcount : st.counted = true) (hcur : st.current = some d)
    (hold : st.oldLeft = oldCountOf ls) (hnew : st.newLeft = newCountOf ls) :
    ∃ st', readLines st (ls.flatMap HunkLine.render) = .ok st' ∧ st'.done = st.done ∧
      st'.current = some (d.addLines ls) ∧ st'.Idle := by
  induction ls generalizing st d with
  | nil =>
    refine ⟨st, rfl, rfl, hcur, ?_⟩
    simp [DiffState.Idle, DiffState.endHunk, hin, hcount, hold, hnew, oldCountOf, newCountOf]
  | cons l ls ih =>
    have left : 0 < st.oldLeft ∨ 0 < st.newLeft := by
      have := counts_cons_pos l ls
      omega
    have hline := diffStep_hunkLine hin hcount hcur left l
    let mid := afterLine st d l
    have hmo : mid.oldLeft = oldCountOf ls := by
      cases hm : l.marker <;>
        simp_all [mid, afterLine, oldCountOf]
    have hmn : mid.newLeft = newCountOf ls := by
      cases hm : l.marker <;>
        simp_all [mid, afterLine, newCountOf]
    have hmi : mid.inHunk = true := hin
    have hmc : mid.counted = true := hcount
    have hmd : mid.current = some (d.addLine l.marker.char l.text) := rfl
    have rest := ih hmi hmc hmd hmo hmn
    have shape : (l :: ls).flatMap HunkLine.render = (l.marker.char :: l.text) ::
        ((if l.noEol then [noEolNote] else []) ++ ls.flatMap HunkLine.render) := rfl
    obtain ⟨st', hr, hdone, hd, hi⟩ := rest
    rw [shape, readLines_cons hline]
    cases hn : l.noEol with
    | false => exact ⟨st', hr, hdone, hd, hi⟩
    | true =>
      simp only [↓reduceIte, List.singleton_append]
      cases ls with
      | nil =>
        -- The note after the last line is read with both counters at zero, as a header.
        have hidle : mid.Idle := by
          have ho : mid.oldLeft = 0 := by simpa [oldCountOf] using hmo
          have hw : mid.newLeft = 0 := by simpa [newCountOf] using hmn
          simp [DiffState.Idle, DiffState.endHunk, hmi, hmc, ho, hw]
        have hnote : diffStep mid noEolNote = .ok mid.endHunk := by
          rw [diffStep_idle hidle, headerStep_ignored noEolNote_ignored]
        rw [readLines_cons hnote]
        have hclosed : mid.endHunk.inHunk = false := hidle
        exact ⟨mid.endHunk, rfl, by simp [mid, afterLine], by simp [mid, afterLine, FileDiff.addLines],
          idle_of_closed hclosed⟩
      | cons l' ls' =>
        have left' : 0 < mid.oldLeft ∨ 0 < mid.newLeft := by
          have := counts_cons_pos l' ls'
          omega
        have hnote := diffStep_noEolNote hmi hmc hmd left'
        rw [readLines_cons hnote]
        exact ⟨st', hr, hdone, hd, hi⟩

theorem headerStep_hunkHeader (st : DiffState) (h : Hunk) :
    headerStep st h.header = hunkHeaderStep st h.header := by
  obtain ⟨t, ht⟩ := startsWith_header h
  simp [headerStep, ht, startsWith_cons]

theorem readLines_hunk {st : DiffState} {d : FileDiff} (hidle : st.Idle) (hcur : st.current = some d)
    {h : Hunk} (hc : h.Countable) :
    ∃ st', readLines st h.render = .ok st' ∧ st'.done = st.done ∧
      st'.current = some (d.addLines h.lines) ∧ st'.Idle := by
  let opened : DiffState := { st.endHunk with
    counted := true, oldLeft := h.oldCount, newLeft := h.newCount, inHunk := true, gitHeader := false }
  have hopen : diffStep st h.header = .ok opened := by
    rw [diffStep_idle hidle, headerStep_hunkHeader]
    simp [hunkHeaderStep, hcur, hunkCounts_header hc, opened]
    rfl
  have hin : opened.inHunk = true := rfl
  have hd : opened.current = some d := by simpa [opened] using hcur
  have hrun := readLines_hunkLines h.lines hin rfl hd rfl rfl
  obtain ⟨st', hr, hdone, hd, hi⟩ := hrun
  refine ⟨st', ?_, by simpa [opened] using hdone, hd, hi⟩
  rw [Hunk.render, readLines_cons hopen, hr]

theorem readLines_hunk_error {st : DiffState} {d : FileDiff} (hidle : st.Idle)
    (hcur : st.current = some d) {h : Hunk} (hc : ¬ h.Countable) (ms : List Str) :
    ∃ e, readLines st (h.render ++ ms) = .error e := by
  obtain ⟨e, he⟩ := hunkCounts_header_error hc
  have hopen : diffStep st h.header = .error e := by
    rw [diffStep_idle hidle, headerStep_hunkHeader]
    simp [hunkHeaderStep, hcur, he]
    rfl
  exact ⟨e, by rw [Hunk.render, List.cons_append, readLines_cons_error hopen]⟩

theorem readLines_hunks (hs : List Hunk) {st : DiffState} {d : FileDiff} (hidle : st.Idle)
    (hcur : st.current = some d) (hc : ∀ h ∈ hs, h.Countable) :
    ∃ st', readLines st (hs.flatMap Hunk.render) = .ok st' ∧ st'.done = st.done ∧
      st'.current = some (d.addLines (hs.flatMap Hunk.lines)) ∧ st'.Idle := by
  induction hs generalizing st d with
  | nil => exact ⟨st, rfl, rfl, hcur, hidle⟩
  | cons h hs ih =>
    obtain ⟨mid, hm, hdone, hd, hi⟩ := readLines_hunk hidle hcur (hc h (by simp))
    obtain ⟨st', hr, hdone', hd', hi'⟩ := ih hi hd fun x hx => hc x (by simp [hx])
    refine ⟨st', ?_, hdone'.trans hdone, ?_, hi'⟩
    · rw [List.flatMap_cons, readLines_append hm, hr]
    · simpa [FileDiff.addLines] using hd'

theorem readLines_hunks_error {hs : List Hunk} {st : DiffState} {d : FileDiff} (hidle : st.Idle)
    (hcur : st.current = some d) (hc : ¬ ∀ h ∈ hs, h.Countable) :
    ∃ e, readLines st (hs.flatMap Hunk.render) = .error e := by
  induction hs generalizing st d with
  | nil => simp at hc
  | cons h hs ih =>
    by_cases hh : h.Countable
    · obtain ⟨mid, hm, _, hd, hi⟩ := readLines_hunk hidle hcur hh
      have hrest : ¬ ∀ x ∈ hs, x.Countable := by simpa [hh] using hc
      obtain ⟨e, he⟩ := ih hi hd hrest
      exact ⟨e, by rw [List.flatMap_cons, readLines_append hm, he]⟩
    · rw [List.flatMap_cons]
      exact readLines_hunk_error hidle hcur hh _

end FailureOrchestrator
