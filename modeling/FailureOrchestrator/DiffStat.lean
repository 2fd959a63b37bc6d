import FailureOrchestrator.DiffRead
import FailureOrchestrator.MarkedLines

namespace FailureOrchestrator

open Regex

/-- What the reviewer is shown of a patch. -/
structure LineStats where
  added : Nat := 0
  removed : Nat := 0
  filesTouchedEstimate : Nat := 0
  deriving DecidableEq, Repr

def LineStats.read (stats : LineStats) (line : Str) : LineStats :=
  if startsWithAny line ["+++", "---", "@@"] then stats
  else if startsWith line ['+'] then { stats with added := stats.added + 1 }
  else if startsWith line ['-'] then { stats with removed := stats.removed + 1 }
  else stats

def patchLineStats (patch : Str) : LineStats := (splitlines patch).foldl LineStats.read {}

/-- A file of the evidence report. -/
structure FileStat where
  path : Str
  added : Nat := 0
  removed : Nat := 0
  deriving DecidableEq, Repr

def FileStat.addLine (f : FileStat) : FileStat := { f with added := f.added + 1 }

def FileStat.removeLine (f : FileStat) : FileStat := { f with removed := f.removed + 1 }

/-- The variables of the loop of `_diffstat`; the list of files is `done ++ current.toList`. -/
structure StatState where
  done : List FileStat := []
  current : Option FileStat := none
  oldPath : Str := []
  oldLeft : Int := 0
  newLeft : Int := 0
  deriving DecidableEq, Repr

def StatState.files (st : StatState) : List FileStat := st.done ++ st.current.toList

def diffPath (header : Str) : Str :=
  let path := strip (beforeFirst '\t' (header.drop 4))
  if startsWithAny path ["a/", "b/"] then path.drop 2 else path

section

variable [UnicodeData]

def statHunkRe : Regex :=
  cat [.bos, lit "@@ -", .grp 1 (some1 digit), opt (cat [chr ',', .grp 2 (some1 digit)]), lit " +",
    .grp 3 (some1 digit), opt (cat [chr ',', .grp 4 (some1 digit)]), lit " @@"]

/-- One line outside a hunk. -/
def statHeader (st : StatState) (line : Str) : Except PyError StatState :=
  if startsWith line "--- ".toList then .ok { st with oldPath := diffPath line }
  else if startsWith line "+++ ".toList then
    let newPath := diffPath line
    let path := if newPath = "/dev/null".toList then st.oldPath else newPath
    .ok { st with done := st.files, current := some { path } }
  else if startsWith line "@@".toList && st.current.isSome then
    match matchStart statHunkRe line with
    | none => .ok st
    | some m => do
      let old ← (m.group 2).elim (.ok 1) pyInt
      let new ← (m.group 4).elim (.ok 1) pyInt
      return { st with oldLeft := old, newLeft := new }
  else .ok st

def statStep (st : StatState) (line : Str) : Except PyError StatState :=
  if 0 < st.oldLeft ∨ 0 < st.newLeft then
    if startsWith line ['-'] then
      .ok { st with current := st.current.map FileStat.removeLine, oldLeft := st.oldLeft - 1 }
    else if startsWith line ['+'] then
      .ok { st with current := st.current.map FileStat.addLine, newLeft := st.newLeft - 1 }
    else if startsWith line ['\\'] then .ok st
    else .ok { st with oldLeft := st.oldLeft - 1, newLeft := st.newLeft - 1 }
  else statHeader st line

def diffstat (patch : Str) : Except PyError (List FileStat) :=
  return (← (splitlines patch).foldlM statStep {}).files

end

/-! ## The counts shown to the reviewer -/

theorem markedLines_single (mark : Char) (line : Str) : (markedLines mark [line]).length =
    if startsWith line [mark] && !startsWith line [mark, mark, mark] then 1 else 0 := by
  unfold markedLines
  rw [List.length_map, List.filter_singleton]
  cases startsWith line [mark] && !startsWith line [mark, mark, mark] with
  | true => rfl
  | false => rfl

theorem LineStats.read_eq (stats : LineStats) (line : Str) : stats.read line =
    { stats with
      added := stats.added + (markedLines '+' [line]).length
      removed := stats.removed + (markedLines '-' [line]).length } := by
  rw [markedLines_single, markedLines_single]
  unfold LineStats.read startsWithAny
  cases line with
  | nil => rfl
  | cons c line =>
    by_cases hplus : c = '+'
    · subst hplus
      cases hlabel : startsWith ('+' :: line) "+++".toList with
      | true => simp_all [startsWith_cons]
      | false => simp_all [startsWith_cons]
    · by_cases hminus : c = '-'
      · subst hminus
        cases hlabel : startsWith ('-' :: line) "---".toList with
        | true => simp_all [startsWith_cons]
        | false => simp_all [startsWith_cons]
      · simp [startsWith_cons, Ne.symm hplus, Ne.symm hminus]

theorem foldl_read (ls : List Str) (stats : LineStats) : ls.foldl LineStats.read stats =
    { stats with
      added := stats.added + (markedLines '+' ls).length
      removed := stats.removed + (markedLines '-' ls).length } := by
  induction ls generalizing stats with
  | nil => rfl
  | cons l ls ih =>
    rw [List.foldl_cons, ih, stats.read_eq, ← List.singleton_append (x := l) (l := ls), markedLines_append,
      markedLines_append, List.length_append, List.length_append, Nat.add_assoc, Nat.add_assoc]

/-! ## The files of the evidence report -/

/-- No hunk is open. -/
def StatState.Idle (st : StatState) : Prop := ¬ (0 < st.oldLeft ∨ 0 < st.newLeft)

/-- A file after the lines of a hunk. -/
def FileStat.addLines (f : FileStat) (ls : List HunkLine) : FileStat :=
  { f with
    added := f.added + (markedTexts .added ls).length
    removed := f.removed + (markedTexts .removed ls).length }

theorem FileStat.addLines_append (f : FileStat) (ls ms : List HunkLine) :
    f.addLines (ls ++ ms) = (f.addLines ls).addLines ms := by
  unfold FileStat.addLines
  simp only [markedTexts_append, List.length_append, Nat.add_assoc]

/-- What the report should list for a section. -/
def FileChange.stat (c : FileChange) : FileStat :=
  FileStat.addLines { path := FileChange.labelPath c.namingLabel } c.hunkLines

theorem diffPath_label {c : Char} {s : Str} (hc : isSpace c = false) (ht : '\t' ∉ c :: s) (mark : Str)
    (hmark : mark.length = 4) : diffPath (mark ++ FileChange.withTab (c :: s)) = FileChange.labelPath (c :: s) := by
  have hdrop : (mark ++ FileChange.withTab (c :: s)).drop 4 = FileChange.withTab (c :: s) := by
    rw [← hmark, List.drop_left]
  have hbase : strip (c :: s) = c :: rstrip s := by
    unfold strip
    rw [lstrip_cons hc]
    exact rstrip_append (s := []) hc s
  have hcut : beforeFirst '\t' (FileChange.withTab (c :: s)) = c :: s := by
    unfold FileChange.withTab
    split
    · unfold beforeFirst
      rw [List.takeWhile_append_of_pos]
      · simp
      · intro d hd
        rw [bne_iff_ne]
        rintro rfl
        exact ht hd
    · exact beforeFirst_of_not_mem ht
  have hkept : beforeFirst '\t' (c :: rstrip s) = c :: rstrip s := by
    refine beforeFirst_of_not_mem ?_
    rw [List.mem_cons, not_or] at ht ⊢
    exact ⟨ht.1, fun hm => ht.2 ((List.rdropWhile_prefix _ _).subset hm)⟩
  unfold diffPath FileChange.labelPath stripPrefix
  rw [hdrop, hcut, hbase, strip_withTab hc, hkept]

theorem diffPath_quoteName {side : Str} (hside : IsSide side) (name mark : Str) (hmark : mark.length = 4) :
    diffPath (mark ++ FileChange.withTab (quoteName side name)) = FileChange.labelPath (quoteName side name) := by
  by_cases hp : Plain name
  · rw [quoteName_plain hp]
    have htab : '\t' ∉ side ++ name := by
      have hclean : '\t' ∉ side := by
        rcases hside with rfl | rfl
        · decide
        · decide
      exact fun hm => (List.mem_append.mp hm).elim hclean (tab_not_mem_of_plain hp)
    rcases hside with rfl | rfl
    · exact diffPath_label (c := 'a') (by decide) htab mark hmark
    · exact diffPath_label (c := 'b') (by decide) htab mark hmark
  · rw [quoteName_quoted hp]
    have htab := tab_not_mem_quoted name
    rcases hside with rfl | rfl
    · exact diffPath_label (c := '"') (by decide) (by simpa using htab) mark hmark
    · exact diffPath_label (c := '"') (by decide) (by simpa using htab) mark hmark

section

variable [UnicodeData]

def readStats (st : StatState) (ls : List Str) : Except PyError StatState := ls.foldlM statStep st

theorem readStats_cons {st st' : StatState} {l : Str} (h : statStep st l = .ok st') (ls : List Str) :
    readStats st (l :: ls) = readStats st' ls := by
  simp [readStats, h, bind, Except.bind]

theorem readStats_append {st st' : StatState} {ls : List Str} (h : readStats st ls = .ok st') (ms : List Str) :
    readStats st (ls ++ ms) = readStats st' ms := by
  simp only [readStats, List.foldlM_append] at *
  simp [h, bind, Except.bind]

theorem statStep_idle {st : StatState} (h : st.Idle) (line : Str) : statStep st line = statHeader st line := if_neg h

/-- A line outside a hunk that begins with none of `-`, `+` and `@` is passed over. -/
theorem statStep_ignored {st : StatState} (h : st.Idle) {a : Char} (ha : a ≠ '-' ∧ a ≠ '+' ∧ a ≠ '@') (t : Str) :
    statStep st (a :: t) = .ok st := by
  have hold : startsWith (a :: t) "--- ".toList = false := by simp [startsWith_cons, Ne.symm ha.1]
  have hnew : startsWith (a :: t) "+++ ".toList = false := by simp [startsWith_cons, Ne.symm ha.2.1]
  have hhunk : startsWith (a :: t) "@@".toList = false := by simp [startsWith_cons, Ne.symm ha.2.2]
  rw [statStep_idle h]
  unfold statHeader
  rw [hold, hnew, hhunk]
  rfl

/-- A hunk that is as long as its counters say is read completely. -/
theorem readStats_hunkLines (ls : List HunkLine) {st : StatState} {f : FileStat} (hcur : st.current = some f)
    (hold : st.oldLeft = oldCountOf ls) (hnew : st.newLeft = newCountOf ls) :
    ∃ st', readStats st (ls.flatMap HunkLine.render) = .ok st' ∧ st'.done = st.done ∧
      st'.current = some (f.addLines ls) ∧ st'.Idle := by
  induction ls generalizing st f with
  | nil =>
    refine ⟨st, rfl, rfl, hcur, ?_⟩
    unfold StatState.Idle
    rw [hold, hnew]
    decide
  | cons l ls ih =>
    have hleft : 0 < st.oldLeft ∨ 0 < st.newLeft := by
      have hpos := counts_cons_pos l ls
      omega
    obtain ⟨mid, hstep, hdone, hmcur, hmold, hmnew⟩ : ∃ mid, statStep st (l.marker.char :: l.text) = .ok mid ∧
        mid.done = st.done ∧ mid.current = some (f.addLines [l]) ∧ mid.oldLeft = oldCountOf ls ∧
        mid.newLeft = newCountOf ls := by
      unfold statStep
      rw [if_pos hleft]
      cases hm : l.marker with
      | removed =>
        refine ⟨{ st with current := some f.removeLine, oldLeft := st.oldLeft - 1 }, ?_, rfl, ?_, ?_, ?_⟩
        · rw [LineMarker.char, startsWith_cons, hcur]
          simp
        · simp [FileStat.addLines, FileStat.removeLine, markedTexts, hm]
        · simp [oldCountOf, hold, hm]
        · simp [newCountOf, hnew, hm]
      | added =>
        refine ⟨{ st with current := some f.addLine, newLeft := st.newLeft - 1 }, ?_, rfl, ?_, ?_, ?_⟩
        · rw [LineMarker.char, startsWith_cons, startsWith_cons, hcur]
          simp
        · simp [FileStat.addLines, FileStat.addLine, markedTexts, hm]
        · simp [oldCountOf, hold, hm]
        · simp [newCountOf, hnew, hm]
      | context =>
        refine ⟨{ st with oldLeft := st.oldLeft - 1, newLeft := st.newLeft - 1 }, ?_, rfl, ?_, ?_, ?_⟩
        · rw [LineMarker.char, startsWith_cons, startsWith_cons, startsWith_cons]
          simp
        · simp [FileStat.addLines, markedTexts, hm, hcur]
        · simp [oldCountOf, hold, hm]
        · simp [newCountOf, hnew, hm]
    obtain ⟨st', hrun, hdone', hcur', hidle⟩ := ih hmcur hmold hmnew
    have hshape : (l :: ls).flatMap HunkLine.render = (l.marker.char :: l.text) ::
        ((if l.noEol then [noEolNote] else []) ++ ls.flatMap HunkLine.render) := rfl
    have hlines : f.addLines (l :: ls) = (f.addLines [l]).addLines ls := f.addLines_append [l] ls
    have hnote : statStep mid noEolNote = .ok mid := by
      by_cases hmid : mid.Idle
      · exact statStep_ignored hmid (by decide) _
      · unfold StatState.Idle at hmid
        unfold statStep
        rw [if_pos (not_not.mp hmid)]
        rfl
    rw [hshape, readStats_cons hstep, hlines]
    refine ⟨st', ?_, hdone'.trans hdone, hcur', hidle⟩
    cases l.noEol with
    | false => exact hrun
    | true =>
      rw [if_pos rfl, List.singleton_append, readStats_cons hnote]
      exact hrun

theorem statCounts_header {h : Hunk} : ∃ m, matchStart statHunkRe h.header = some m ∧
    m.group 2 = (if h.oldCount = 1 then none else some (natStr h.oldCount)) ∧
    m.group 4 = (if h.newCount = 1 then none else some (natStr h.newCount)) := by
  obtain ⟨b, hm⟩ := matchStart_header (readsDigits_grp 1) (readsDigits_grp 3) 2 4 h.oldStart h.oldCount h.newStart
    h.newCount (h.heading.elim [] fun t => ' ' :: t)
  refine ⟨_, hm, ?_, ?_⟩
  · by_cases ho : h.oldCount = 1 <;> by_cases hn : h.newCount = 1 <;>
      simp [Cursor.group, rangeGroups, ho, hn, List.lookup_cons]
  · by_cases ho : h.oldCount = 1 <;> by_cases hn : h.newCount = 1 <;>
      simp [Cursor.group, rangeGroups, ho, hn, List.lookup_cons]

theorem statHeader_hunk {st : StatState} {f : FileStat} (hcur : st.current = some f) (h : Hunk) :
    statHeader st h.header = (do
      let old ← (if h.oldCount = 1 then none else some (natStr h.oldCount)).elim (.ok 1) pyInt
      let new ← (if h.newCount = 1 then none else some (natStr h.newCount)).elim (.ok 1) pyInt
      return { st with oldLeft := old, newLeft := new }) := by
  obtain ⟨m, hm, hold, hnew⟩ := statCounts_header (h := h)
  obtain ⟨t, ht⟩ := startsWith_header h
  have hminus : startsWith h.header "--- ".toList = false := by simp [ht, startsWith_cons]
  have hplus : startsWith h.header "+++ ".toList = false := by simp [ht, startsWith_cons]
  have hat : startsWith h.header "@@".toList = true := by simp [ht, startsWith_cons]
  unfold statHeader
  rw [hminus, hplus, hat, hcur, hm, ← hold, ← hnew]
  rfl

theorem readStats_hunk {st : StatState} {f : FileStat} (hidle : st.Idle) (hcur : st.current = some f) {h : Hunk}
    (hc : h.Countable) : ∃ st', readStats st h.render = .ok st' ∧ st'.done = st.done ∧
      st'.current = some (f.addLines h.lines) ∧ st'.Idle := by
  have hopen : statStep st h.header = .ok { st with oldLeft := h.oldCount, newLeft := h.newCount } := by
    rw [statStep_idle hidle, statHeader_hunk hcur, countText_pyInt hc.1, countText_pyInt hc.2]
    rfl
  obtain ⟨st', hrun, hdone, hcur', hidle'⟩ := @readStats_hunkLines _ h.lines
    { st with oldLeft := h.oldCount, newLeft := h.newCount } _ hcur rfl rfl
  refine ⟨st', ?_, hdone, hcur', hidle'⟩
  rw [Hunk.render, readStats_cons hopen, hrun]

theorem readStats_hunks (hs : List Hunk) {st : StatState} {f : FileStat} (hidle : st.Idle) (hcur : st.current = some f)
    (hc : ∀ h ∈ hs, h.Countable) : ∃ st', readStats st (hs.flatMap Hunk.render) = .ok st' ∧ st'.done = st.done ∧
      st'.current = some (f.addLines (hs.flatMap Hunk.lines)) ∧ st'.Idle := by
  induction hs generalizing st f with
  | nil => exact ⟨st, rfl, rfl, hcur, hidle⟩
  | cons h hs ih =>
    rw [List.forall_mem_cons] at hc
    obtain ⟨mid, hm, hdone, hd, hi⟩ := readStats_hunk hidle hcur hc.1
    obtain ⟨st', hr, hdone', hd', hi'⟩ := ih hi hd hc.2
    refine ⟨st', ?_, hdone'.trans hdone, ?_, hi'⟩
    · rw [List.flatMap_cons, readStats_append hm, hr]
    · rw [hd', List.flatMap_cons, FileStat.addLines_append]

theorem readStats_ignored {st : StatState} (h : st.Idle) {ls : List Str}
    (hls : ∀ l ∈ ls, ∃ a t, l = a :: t ∧ a ≠ '-' ∧ a ≠ '+' ∧ a ≠ '@') : readStats st ls = .ok st := by
  induction ls with
  | nil => rfl
  | cons l ls ih =>
    rw [List.forall_mem_cons] at hls
    obtain ⟨⟨a, t, rfl, ha⟩, hrest⟩ := hls
    rw [readStats_cons (statStep_ignored h ha t)]
    exact ih hrest

end

end FailureOrchestrator
