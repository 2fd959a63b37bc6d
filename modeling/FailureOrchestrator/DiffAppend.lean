import FailureOrchestrator.DiffFaithful
import FailureOrchestrator.Integrity

namespace FailureOrchestrator

/-- Only a carriage return looks at the character after it. -/
theorem splitlines_step {c : Char} {s : Str} (h : c = '\r' → s.head? ≠ some '\n') :
    splitlines (c :: s) = if isLineBreak c then [] :: splitlines s else consLine c (splitlines s) := by
  cases s with
  | nil => simp [splitlines]
  | cons d s =>
    rw [splitlines]
    rintro rest rfl heq
    cases heq
    exact h rfl rfl

theorem consLine_append (c : Char) {xs : List Str} (h : xs ≠ []) (ys : List Str) :
    consLine c (xs ++ ys) = consLine c xs ++ ys := by
  cases xs with
  | nil => exact absurd rfl h
  | cons x xs => rfl

theorem splitlines_ne_nil {s : Str} (h : s ≠ []) : splitlines s ≠ [] := by
  induction s using splitlines.induct with
  | case1 => exact absurd rfl h
  | case2 rest ih => simp [splitlines]
  | case3 c rest hshape hc ih =>
    rw [splitlines, if_pos hc]
    · simp
    · exact hshape
  | case4 c rest hshape hc ih =>
    rw [splitlines, if_neg hc]
    · cases splitlines rest <;> simp [consLine]
    · exact hshape

/-- A text that ends its last line is cut apart from whatever follows it. -/
theorem splitlines_append (s t : Str) :
    splitlines (s ++ '\n' :: t) = splitlines (s ++ ['\n']) ++ splitlines t := by
  have tail : ∀ (c : Char) (rest : Str), (∀ r, c = '\r' → rest = '\n' :: r → False) → ¬ (c = '\r' ∧ rest = []) →
      ∀ u, c = '\r' → (rest ++ '\n' :: u).head? ≠ some '\n' := by
    intro c rest hshape hne u hc hhead
    cases rest with
    | nil => exact hne ⟨hc, rfl⟩
    | cons d rest =>
      have hd : d = '\n' := by simpa using hhead
      exact hshape rest hc (by rw [hd])
  induction s using splitlines.induct with
  | case1 => simp [splitlines, isLineBreak]
  | case2 rest ih => simp only [List.cons_append, splitlines, ih]
  | case3 c rest hshape hc ih =>
    by_cases hcr : c = '\r' ∧ rest = []
    · obtain ⟨rfl, rfl⟩ := hcr
      simp [splitlines]
    · have step := tail c rest hshape hcr
      rw [List.cons_append, List.cons_append, splitlines_step (step t), splitlines_step (step []),
        if_pos hc, if_pos hc, ih]
      rfl
  | case4 c rest hshape hc ih =>
    have hcr : ¬ (c = '\r' ∧ rest = []) := by
      rintro ⟨rfl, -⟩
      exact hc (by decide)
    have step := tail c rest hshape hcr
    rw [List.cons_append, List.cons_append, splitlines_step (step t), splitlines_step (step []),
      if_neg hc, if_neg hc, ih, consLine_append]
    exact splitlines_ne_nil (by simp)

/-- The first line keeps the words that the text starts with. -/
theorem splitlines_start {w : Str} (hw : Unbroken w) (hne : w ≠ []) (r : Str) :
    ∃ l ls, splitlines (w ++ r) = (w ++ l) :: ls := by
  induction w with
  | nil => exact absurd rfl hne
  | cons c w ih =>
    have hc := hw c (by simp)
    rw [List.cons_append, splitlines_cons hc]
    by_cases hnil : w = []
    · subst hnil
      cases hr : splitlines r with
      | nil => exact ⟨[], [], by simp [hr, consLine]⟩
      | cons l ls => exact ⟨l, ls, by simp [hr, consLine]⟩
    · obtain ⟨l, ls, hl⟩ := ih (fun d hd => hw d (by simp [hd])) hnil
      exact ⟨l, ls, by rw [hl]; rfl⟩

/-! ## A section read after other files -/

/-- Two computations that raise the same error, or end in related values. -/
def SameEnd {ε α β : Type} (R : α → β → Prop) : Except ε α → Except ε β → Prop
  | .ok a, .ok b => R a b
  | .error e, .error e' => e = e'
  | _, _ => False

theorem foldlM_sameEnd {ε α β γ : Type} {R : α → β → Prop} {f : α → γ → Except ε α} {g : β → γ → Except ε β}
    (step : ∀ a b c, R a b → SameEnd R (f a c) (g b c)) (cs : List γ) {a : α} {b : β} (h : R a b) :
    SameEnd R (cs.foldlM f a) (cs.foldlM g b) := by
  induction cs generalizing a b with
  | nil => exact h
  | cons c cs ih =>
    have hstep := step a b c h
    rw [List.foldlM_cons, List.foldlM_cons]
    cases hf : f a c <;> cases hg : g b c <;> rw [hf, hg] at hstep
    · exact hstep
    · exact hstep.elim
    · exact hstep.elim
    · exact ih hstep

/-- The reader in the middle of a longer text beside the reader of its last sections alone.
What the first still holds of counters that no hunk uses is never looked at. -/
structure Resumes (before : List FileDiff) (st alone : DiffState) : Prop where
  done : st.done = before ++ alone.done
  current : st.current = alone.current
  inHunk : st.inHunk = alone.inHunk
  pendingOld : st.pendingOld = alone.pendingOld
  gitHeader : st.gitHeader = alone.gitHeader
  counted : st.inHunk = true → st.counted = alone.counted
  left : st.inHunk = true → st.counted = true → st.oldLeft = alone.oldLeft ∧ st.newLeft = alone.newLeft

section

variable {before : List FileDiff} {st alone : DiffState}

theorem Resumes.files (h : Resumes before st alone) : st.files = before ++ alone.files := by
  unfold DiffState.files
  rw [h.done, h.current, List.append_assoc]

/-- Outside a hunk only the file list and the header flags count. -/
theorem Resumes.closed (hd : st.done = before ++ alone.done) (hc : st.current = alone.current)
    (hp : st.pendingOld = alone.pendingOld) (hg : st.gitHeader = alone.gitHeader) (hs : st.inHunk = false)
    (ha : alone.inHunk = false) : Resumes before st alone where
  done := hd
  current := hc
  inHunk := hs.trans ha.symm
  pendingOld := hp
  gitHeader := hg
  counted := fun hin => absurd hin (by simp [hs])
  left := fun hin => absurd hin (by simp [hs])

theorem Resumes.openFile (h : Resumes before st alone) (d : FileDiff) :
    Resumes before (st.openFile d) (alone.openFile d) :=
  { h with done := h.files, current := rfl }

theorem Resumes.mapCurrent (h : Resumes before st alone) (φ : FileDiff → FileDiff) :
    Resumes before { st with current := st.current.map φ } { alone with current := alone.current.map φ } :=
  { h with current := by rw [h.current] }

theorem Resumes.endHunk (h : Resumes before st alone) : Resumes before st.endHunk alone.endHunk := by
  unfold DiffState.endHunk
  cases hin : st.inHunk with
  | false =>
    rw [← h.inHunk, hin]
    exact h
  | true =>
    rw [← h.inHunk, hin, ← h.counted hin]
    cases hcount : st.counted with
    | false => exact h
    | true =>
      obtain ⟨hold, hnew⟩ := h.left hin hcount
      rw [← hold, ← hnew]
      split
      · exact .closed h.done h.current h.pendingOld h.gitHeader rfl rfl
      · exact h

theorem Resumes.newFileStep (h : Resumes before st alone) (raw : Str) :
    Resumes before (newFileStep st raw) (newFileStep alone raw) := by
  unfold FailureOrchestrator.newFileStep
  dsimp only
  rw [h.pendingOld, h.gitHeader, h.current]
  cases hc : alone.current with
  | none =>
    have opened := h.openFile
      { path := if stripPrefix (raw.drop 4) == "/dev/null".toList then alone.pendingOld.getD [] else stripPrefix (raw.drop 4) }
    exact { opened.mapCurrent _ with gitHeader := rfl }
  | some d =>
    cases alone.gitHeader with
    | true => exact { h with current := rfl, gitHeader := rfl, pendingOld := rfl }
    | false =>
      have opened := h.openFile
        { path := if stripPrefix (raw.drop 4) == "/dev/null".toList then alone.pendingOld.getD [] else stripPrefix (raw.drop 4) }
      exact { opened.mapCurrent _ with gitHeader := rfl }

theorem Resumes.hunkStep (h : Resumes before st alone) (hin : st.inHunk = true) (d : FileDiff) (raw : Str) :
    Option.Rel (Resumes before) (hunkStep st d raw) (hunkStep alone d raw) := by
  unfold FailureOrchestrator.hunkStep
  rw [← h.counted hin]
  split
  · exact .some h
  · dsimp only
    split
    · refine .some { h with current := rfl, counted := fun _ => rfl, left := fun _ hcount => ?_ }
      obtain ⟨hold, hnew⟩ := h.left hin hcount
      rw [← hold, ← hnew]
      exact ⟨rfl, rfl⟩
    · exact .none

variable [UnicodeData]

theorem Resumes.hunkHeaderStep (h : Resumes before st alone) (raw : Str) :
    SameEnd (Resumes before) (hunkHeaderStep st raw) (hunkHeaderStep alone raw) := by
  have opened : Resumes before (if st.current.isNone then st.openFile { path := [] } else st)
      (if alone.current.isNone then alone.openFile { path := [] } else alone) := by
    rw [h.current]
    split
    · exact h.openFile _
    · exact h
  unfold FailureOrchestrator.hunkHeaderStep
  dsimp only
  cases hunkCounts raw with
  | error e => exact rfl
  | ok counts =>
    cases counts with
    | none =>
      exact { opened with inHunk := rfl, gitHeader := rfl, counted := fun _ => rfl, left := fun _ hcount => nomatch hcount }
    | some p =>
      exact { opened with inHunk := rfl, gitHeader := rfl, counted := fun _ => rfl, left := fun _ _ => ⟨rfl, rfl⟩ }

theorem Resumes.headerStep (h : Resumes before st alone) (raw : Str) :
    SameEnd (Resumes before) (headerStep st raw) (headerStep alone raw) := by
  have hsome : st.current.isSome = alone.current.isSome := by rw [h.current]
  unfold FailureOrchestrator.headerStep
  rw [hsome]
  split
  · exact { h.openFile _ with pendingOld := rfl, gitHeader := rfl }
  split
  · exact h.mapCurrent _
  split
  · exact h.mapCurrent _
  split
  · exact h.mapCurrent _
  split
  · exact { h with pendingOld := rfl }
  split
  · exact h.newFileStep raw
  split
  · exact h.hunkHeaderStep raw
  · exact h

/-- One line moves both readers alike. -/
theorem Resumes.diffStep (h : Resumes before st alone) (raw : Str) :
    SameEnd (Resumes before) (diffStep st raw) (diffStep alone raw) := by
  have hend := h.endHunk
  unfold FailureOrchestrator.diffStep
  dsimp only
  rw [← hend.current, ← hend.inHunk]
  split
  · next d hin hcur =>
    have hstep := hend.hunkStep hin d raw
    cases hs : FailureOrchestrator.hunkStep st.endHunk d raw <;>
      cases ha : FailureOrchestrator.hunkStep alone.endHunk d raw <;> rw [hs, ha] at hstep
    · have closed : Resumes before { st.endHunk with inHunk := false }
          { alone.endHunk with current := st.endHunk.current, inHunk := false } :=
        .closed hend.done rfl hend.pendingOld hend.gitHeader rfl rfl
      exact closed.headerStep raw
    · cases hstep
    · cases hstep
    · cases hstep with
      | some hr => exact hr
  · exact hend.headerStep raw

end

/-- A hunk is always a hunk of some file. -/
def DiffState.Opened (st : DiffState) : Prop := st.inHunk = true → st.current.isSome = true

theorem hunkStep_opened {st st' : DiffState} {d : FileDiff} {raw : Str} (h : st.Opened)
    (hs : hunkStep st d raw = some st') : st'.Opened := by
  unfold hunkStep at hs
  split at hs
  · rw [← Option.some.inj hs]
    exact h
  · dsimp only at hs
    split at hs
    · rw [← Option.some.inj hs]
      exact fun _ => rfl
    · cases hs

theorem newFileStep_opened (st : DiffState) (raw : Str) : (newFileStep st raw).Opened := by
  intro _
  unfold newFileStep
  dsimp only
  split <;> rfl

theorem endHunk_opened {st : DiffState} (h : st.Opened) : st.endHunk.Opened := by
  unfold DiffState.endHunk
  split
  · exact fun hin => nomatch hin
  · exact h

theorem start_opened : DiffState.Opened {} := by
  intro hin
  cases hin

section

variable [UnicodeData]

theorem readLines_error_of_mem {ls : List Str} {l : Str} (hl : l ∈ ls)
    (herr : ∀ st, ∃ e, diffStep st l = .error e) (st : DiffState) : ∃ e, readLines st ls = .error e := by
  induction ls generalizing st with
  | nil => cases hl
  | cons x ls ih =>
    cases hx : diffStep st x with
    | error e => exact ⟨e, readLines_cons_error hx ls⟩
    | ok mid =>
      rcases List.mem_cons.mp hl with rfl | hl
      · obtain ⟨e, he⟩ := herr st
        rw [hx] at he
        cases he
      · rw [readLines_cons hx]
        exact ih hl mid

/-- A hunk header whose counts do not convert stops the reader wherever it stands: no hunk line
starts like it. -/
theorem diffStep_header_error {rest : Str} {e : PyError} (he : hunkCounts ("@@ -".toList ++ rest) = .error e)
    (st : DiffState) : ∃ e', diffStep st ("@@ -".toList ++ rest) = .error e' := by
  have header : ∀ s : DiffState, headerStep s ("@@ -".toList ++ rest) = .error e := by
    intro s
    show hunkHeaderStep s ("@@ -".toList ++ rest) = .error e
    unfold hunkHeaderStep
    rw [he]
    rfl
  have leaves : ∀ (s : DiffState) (d : FileDiff), hunkStep s d ("@@ -".toList ++ rest) = none := by
    intro s d
    unfold hunkStep
    rfl
  unfold diffStep
  dsimp only
  split
  · rw [leaves]
    exact ⟨e, header _⟩
  · exact ⟨e, header _⟩

theorem parseUnifiedDiff_error_of_mem {patch l : Str} (hl : l ∈ splitlines patch)
    (herr : ∀ st, ∃ e, diffStep st l = .error e) : ∃ e, parseUnifiedDiff patch = .error e := by
  obtain ⟨e, he⟩ := readLines_error_of_mem hl herr {}
  unfold readLines at he
  exact ⟨e, by rw [parseUnifiedDiff, he]; rfl⟩

theorem hunkHeaderStep_opened {st st' : DiffState} {raw : Str} (hs : hunkHeaderStep st raw = .ok st') :
    st'.Opened := by
  have hsome : (if st.current.isNone then st.openFile { path := [] } else st).current.isSome = true := by
    split
    · rfl
    · next h => simpa [Option.isSome_iff_ne_none] using h
  unfold hunkHeaderStep at hs
  dsimp only at hs
  cases hc : hunkCounts raw with
  | error e => rw [hc] at hs; cases hs
  | ok counts =>
    rw [hc] at hs
    cases counts with
    | none => cases hs; exact fun _ => hsome
    | some p => cases hs; exact fun _ => hsome

theorem headerStep_opened {st st' : DiffState} {raw : Str} (h : st.Opened) (hs : headerStep st raw = .ok st') :
    st'.Opened := by
  have mapped : ∀ φ : FileDiff → FileDiff, DiffState.Opened { st with current := st.current.map φ } :=
    fun φ hin => by simpa using h hin
  unfold headerStep at hs
  split at hs
  · cases hs
    exact fun _ => rfl
  split at hs
  · cases hs
    exact mapped _
  split at hs
  · cases hs
    exact mapped _
  split at hs
  · cases hs
    exact mapped _
  split at hs
  · cases hs
    exact h
  split at hs
  · cases hs
    exact newFileStep_opened st raw
  split at hs
  · exact hunkHeaderStep_opened hs
  · cases hs
    exact h

theorem diffStep_opened {st st' : DiffState} {raw : Str} (h : st.Opened) (hs : diffStep st raw = .ok st') :
    st'.Opened := by
  have hend := endHunk_opened h
  unfold diffStep at hs
  dsimp only at hs
  split at hs
  · split at hs
    · next hstep =>
      cases hs
      exact hunkStep_opened hend hstep
    · have closed : DiffState.Opened { st.endHunk with inHunk := false } := fun hin => nomatch hin
      exact headerStep_opened closed hs
  · exact headerStep_opened hend hs

theorem readLines_opened {ls : List Str} {st st' : DiffState} (h : st.Opened) (hs : readLines st ls = .ok st') :
    st'.Opened := by
  induction ls generalizing st with
  | nil =>
    cases hs
    exact h
  | cons l ls ih =>
    cases hl : diffStep st l with
    | error e => rw [readLines_cons_error hl] at hs; cases hs
    | ok mid =>
      rw [readLines_cons hl] at hs
      exact ih (diffStep_opened h hl) hs

/-- A `diff --git` line starts afresh, also in the middle of a hunk: what follows is read as if
the text began here. -/
theorem diffStep_diffGit {st : DiffState} (h : st.Opened) (rest : Str) :
    SameEnd (Resumes st.files) (diffStep st ("diff --git ".toList ++ rest))
      (diffStep {} ("diff --git ".toList ++ rest)) := by
  let opened : DiffState → DiffState := fun s =>
    let parts := splitChar ' ' ("diff --git ".toList ++ rest)
    let path := if 4 ≤ parts.length then stripPrefix (parts.getLastD []) else []
    { s.openFile { path } with pendingOld := none, gitHeader := true }
  have header : ∀ s : DiffState, headerStep s ("diff --git ".toList ++ rest) = .ok (opened s) := by
    intro s
    exact if_pos (by simp [startsWith])
  have resumes : ∀ s : DiffState, s.files = st.files → s.inHunk = false → Resumes st.files (opened s) (opened {}) := by
    intro s hfiles hin
    exact .closed (hfiles.trans (List.append_nil _).symm) rfl rfl rfl hin rfl
  have alone : diffStep {} ("diff --git ".toList ++ rest) = .ok (opened {}) := header {}
  rw [alone]
  unfold diffStep
  dsimp only
  split
  · next d _ _ =>
    have leaves : hunkStep st.endHunk d ("diff --git ".toList ++ rest) = none := rfl
    rw [leaves]
    dsimp only
    rw [header]
    exact resumes _ (endHunk_files st) rfl
  · next hne =>
    have hclosed : st.endHunk.inHunk = false := by
      by_contra hin
      have hin : st.endHunk.inHunk = true := by simpa using hin
      obtain ⟨d, hd⟩ := Option.isSome_iff_exists.mp (endHunk_opened h hin)
      exact hne d hin hd
    rw [header]
    exact resumes _ (endHunk_files st) hclosed

/-- Sections that follow a text with a finished last line are read as if they stood alone. -/
theorem parseUnifiedDiff_sections {p q : Str} (hp : p = [] ∨ ∃ body, p = body ++ ['\n'])
    (hq : startsWith q "diff --git ".toList = true) :
    parseUnifiedDiff (p ++ q) = (do
      let fs ← parseUnifiedDiff p
      let gs ← parseUnifiedDiff q
      return fs ++ gs) := by
  have hlines : splitlines (p ++ q) = splitlines p ++ splitlines q := by
    rcases hp with rfl | ⟨body, rfl⟩
    · rfl
    · rw [List.append_assoc, List.singleton_append, splitlines_append]
  obtain ⟨r, rfl⟩ := List.isPrefixOf_iff_prefix.mp hq
  obtain ⟨l, ls, hsplit⟩ := splitlines_start (w := "diff --git ".toList) (by decide) (by decide) r
  unfold parseUnifiedDiff
  rw [hlines, List.foldlM_append, hsplit]
  cases hr : (splitlines p).foldlM diffStep {} with
  | error e => rfl
  | ok st =>
    have hopened : st.Opened := readLines_opened start_opened hr
    have hrest : SameEnd (Resumes st.files) ((("diff --git ".toList ++ l) :: ls).foldlM diffStep st)
        ((("diff --git ".toList ++ l) :: ls).foldlM diffStep {}) := by
      have hfirst := diffStep_diffGit hopened l
      rw [List.foldlM_cons, List.foldlM_cons]
      cases hs : diffStep st ("diff --git ".toList ++ l) <;> cases ha : diffStep {} ("diff --git ".toList ++ l) <;>
        rw [hs, ha] at hfirst
      · exact hfirst
      · exact hfirst.elim
      · exact hfirst.elim
      · exact foldlM_sameEnd (fun _ _ c hr => hr.diffStep c) ls hfirst
    show (do return (← (("diff --git ".toList ++ l) :: ls).foldlM diffStep st).files) = _
    generalize (("diff --git ".toList ++ l) :: ls).foldlM diffStep st = whole at hrest
    generalize (("diff --git ".toList ++ l) :: ls).foldlM diffStep {} = alone at hrest
    cases whole <;> cases alone
    · exact congrArg Except.error hrest
    · exact hrest.elim
    · exact hrest.elim
    · exact congrArg Except.ok hrest.files

theorem analyzePatch_sections {p q : Str} (hp : p = [] ∨ ∃ body, p = body ++ ['\n'])
    (hq : startsWith q "diff --git ".toList = true) :
    analyzePatch (p ++ q) = (do
      let fs ← analyzePatch p
      let gs ← analyzePatch q
      return fs ++ gs) := by
  unfold analyzePatch
  rw [parseUnifiedDiff_sections hp hq]
  cases parseUnifiedDiff p with
  | error e => rfl
  | ok files =>
    cases parseUnifiedDiff q with
    | error e => rfl
    | ok files' => exact congrArg Except.ok List.flatMap_append

/-- Parsing and analysis are homomorphisms: no section of a patch hides another, whatever the
text before it leaves unfinished. -/
theorem patches_read_apart (p q : Str) (hp : p = [] ∨ ∃ body, p = body ++ ['\n'])
    (hq : startsWith q "diff --git ".toList = true) :
    parseUnifiedDiff (p ++ q) = (do
      let fs ← parseUnifiedDiff p
      let gs ← parseUnifiedDiff q
      return fs ++ gs) ∧
    analyzePatch (p ++ q) = (do
      let fs ← analyzePatch p
      let gs ← analyzePatch q
      return fs ++ gs) :=
  ⟨parseUnifiedDiff_sections hp hq, analyzePatch_sections hp hq⟩

end

/-- A hunk that promises five lines and has one. -/
def truncatedSection : Str :=
  "diff --git a/a.py b/a.py\n--- a/a.py\n+++ b/a.py\n@@ -1,5 +1,5 @@\n-x\n".toList

theorem truncatedSection_apart :
    @parseUnifiedDiff asciiData (truncatedSection ++ "diff --git a/b.py b/b.py\n".toList) =
      .ok [{ path := "a.py".toList, removed := ["x".toList], lines := [('-', "x".toList)] },
        { path := "b.py".toList }] := by
  refine (@patches_read_apart asciiData truncatedSection "diff --git a/b.py b/b.py\n".toList
    (Or.inr ⟨"diff --git a/a.py b/a.py\n--- a/a.py\n+++ b/a.py\n@@ -1,5 +1,5 @@\n-x".toList, ?_⟩) rfl).1.trans ?_
  · decide
  · rfl

end FailureOrchestrator
