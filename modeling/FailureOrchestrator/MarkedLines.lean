import FailureOrchestrator.PatchFiles

namespace FailureOrchestrator

/-- The lines with a mark, without it; where the mark stands three times the line is taken for a label. -/
def markedLines (mark : Char) (lines : List Str) : List Str :=
  (lines.filter fun line => startsWith line [mark] && !startsWith line [mark, mark, mark]).map (·.drop 1)

/-- The texts of the hunk lines with a marker. -/
def markedTexts (marker : LineMarker) (ls : List HunkLine) : List Str :=
  ls.filterMap fun l => if l.marker = marker then some l.text else none

/-- A text that makes its line look like a label. -/
def hiddenBy (mark : Char) (text : Str) : Bool := startsWith text [mark, mark]

theorem markedLines_append (mark : Char) (ls ms : List Str) :
    markedLines mark (ls ++ ms) = markedLines mark ls ++ markedLines mark ms := by
  unfold markedLines
  rw [List.filter_append, List.map_append]

theorem markedLines_unmarked {mark : Char} {ls : List Str} (h : ∀ l ∈ ls, startsWith l [mark] = false) :
    markedLines mark ls = [] := by
  unfold markedLines
  rw [List.filter_eq_nil_iff.mpr, List.map_nil]
  intro l hl
  simp [h l hl]

theorem startsWith_cons_ne {c mark : Char} (h : c ≠ mark) (s : Str) : startsWith (c :: s) [mark] = false := by
  simp [startsWith_cons, Ne.symm h]

theorem markedTexts_append (marker : LineMarker) (ls ms : List HunkLine) :
    markedTexts marker (ls ++ ms) = markedTexts marker ls ++ markedTexts marker ms := List.filterMap_append

namespace FileChange

/-- The lines of a section before its body begin with a letter. -/
theorem headLines_letter (c : FileChange) : ∀ l ∈ c.diffGitLine :: (c.modeLines ++ c.moveLines ++ c.indexLines),
    ∃ a t, l = a :: t ∧ a.isAlpha = true := by
  intro l hl
  rw [List.mem_cons, List.mem_append, List.mem_append] at hl
  rcases hl with rfl | (hl | hl) | hl
  · exact ⟨_, _, rfl, by decide⟩
  · unfold modeLines at hl
    cases hk : c.kind with
    | add p =>
      rw [hk] at hl
      rw [List.mem_singleton.mp hl]
      exact ⟨_, _, rfl, by decide⟩
    | delete p =>
      rw [hk] at hl
      rw [List.mem_singleton.mp hl]
      exact ⟨_, _, rfl, by decide⟩
    | modify p | rename o n | copy o n =>
      rw [hk] at hl
      dsimp only at hl
      split at hl
      · cases hl
      · simp only [List.mem_cons, List.not_mem_nil, or_false] at hl
        rcases hl with rfl | rfl
        · exact ⟨_, _, rfl, by decide⟩
        · exact ⟨_, _, rfl, by decide⟩
  · unfold moveLines at hl
    cases hk : c.kind with
    | modify p | add p | delete p =>
      rw [hk] at hl
      cases hl
    | rename o n | copy o n =>
      rw [hk] at hl
      simp only [List.mem_cons, List.not_mem_nil, or_false] at hl
      rcases hl with rfl | rfl | rfl
      · exact ⟨_, _, rfl, by decide⟩
      · exact ⟨_, _, rfl, by decide⟩
      · exact ⟨_, _, rfl, by decide⟩
  · unfold indexLines at hl
    split at hl
    · cases hl
    · rw [List.mem_singleton.mp hl]
      exact ⟨_, _, rfl, by decide⟩

end FileChange

section

variable {marker : LineMarker}

/-- Of a hunk line the text is read when its marker is the mark and it is not hidden. -/
theorem markedLines_hunkLine (hmarker : marker ≠ .context) (l : HunkLine) : markedLines marker.char l.render =
    (markedTexts marker [l]).filter fun t => !hiddenBy marker.char t := by
  have hnote : markedLines marker.char (if l.noEol then [noEolNote] else []) = [] := by
    refine markedLines_unmarked fun x hx => ?_
    split at hx
    · rw [List.mem_singleton.mp hx]
      cases marker with
      | context => exact absurd rfl hmarker
      | added | removed => rfl
    · cases hx
  unfold HunkLine.render
  rw [← List.singleton_append, markedLines_append, hnote, List.append_nil]
  by_cases hm : l.marker = marker
  · have htexts : markedTexts marker [l] = [l.text] := by simp [markedTexts, hm]
    have hlabel : startsWith (marker.char :: l.text) [marker.char, marker.char, marker.char] =
        hiddenBy marker.char l.text := by
      unfold hiddenBy
      rw [startsWith_cons]
      simp
    have hmark : startsWith (marker.char :: l.text) [marker.char] = true := startsWith_append [marker.char] l.text
    unfold markedLines
    rw [htexts, hm, List.filter_cons, hmark, hlabel, Bool.true_and]
    cases hhidden : hiddenBy marker.char l.text with
    | true => simp [hhidden]
    | false => simp [hhidden]
  · have htexts : markedTexts marker [l] = [] := by simp [markedTexts, hm]
    have hne : l.marker.char ≠ marker.char := by
      intro heq
      refine hm ?_
      cases hl : l.marker with
      | context | added | removed =>
        rw [hl] at heq
        cases marker with
        | context | added | removed => first | rfl | exact absurd heq (by decide)
    rw [htexts, markedLines_unmarked fun x hx => by rw [List.mem_singleton.mp hx]; exact startsWith_cons_ne hne _]
    rfl

theorem markedLines_hunkLines (hmarker : marker ≠ .context) (ls : List HunkLine) :
    markedLines marker.char (ls.flatMap HunkLine.render) =
      (markedTexts marker ls).filter fun t => !hiddenBy marker.char t := by
  induction ls with
  | nil => rfl
  | cons l ls ih =>
    rw [List.flatMap_cons, markedLines_append, markedLines_hunkLine hmarker, ih, ← List.singleton_append (x := l) (l := ls),
      markedTexts_append, List.filter_append]

theorem markedLines_hunks (hmarker : marker ≠ .context) (hs : List Hunk) :
    markedLines marker.char (hs.flatMap Hunk.render) =
      (markedTexts marker (hs.flatMap Hunk.lines)).filter fun t => !hiddenBy marker.char t := by
  induction hs with
  | nil => rfl
  | cons h hs ih =>
    have hheader : markedLines marker.char [h.header] = [] := by
      obtain ⟨t, ht⟩ := startsWith_header h
      refine markedLines_unmarked fun x hx => ?_
      rw [List.mem_singleton.mp hx, ht]
      refine startsWith_cons_ne ?_ _
      cases marker with
      | context | added | removed => decide
    unfold Hunk.render at ih ⊢
    rw [List.flatMap_cons, ← List.singleton_append (x := h.header), markedLines_append, markedLines_append, hheader,
      List.nil_append, markedLines_hunkLines hmarker, ih, List.flatMap_cons, markedTexts_append, List.filter_append]

theorem markedLines_section (hmarker : marker ≠ .context) (c : FileChange) : markedLines marker.char c.render =
    (markedTexts marker c.hunkLines).filter fun t => !hiddenBy marker.char t := by
  have hhead : markedLines marker.char (c.diffGitLine :: (c.modeLines ++ c.moveLines ++ c.indexLines)) = [] := by
    refine markedLines_unmarked fun l hl => ?_
    obtain ⟨a, t, rfl, ha⟩ := c.headLines_letter l hl
    refine startsWith_cons_ne ?_ _
    rintro rfl
    cases marker with
    | context | added | removed => exact absurd ha (by decide)
  have hbody : markedLines marker.char c.bodyLines =
      (markedTexts marker c.hunkLines).filter fun t => !hiddenBy marker.char t := by
    unfold FileChange.bodyLines FileChange.hunkLines FileChange.hunks
    cases c.body with
    | binary =>
      refine markedLines_unmarked fun x hx => ?_
      rw [List.mem_singleton.mp hx]
      cases marker with
      | context => exact absurd rfl hmarker
      | added | removed => rfl
    | hunks hs =>
      cases hs with
      | nil => rfl
      | cons h hs =>
        have hlabels : ∀ x y : Str, markedLines marker.char ["--- ".toList ++ x, "+++ ".toList ++ y] = [] := by
          intro x y
          cases marker with
          | context => exact absurd rfl hmarker
          | added | removed => rfl
        dsimp only
        rw [← markedLines_hunks hmarker, ← List.nil_append (markedLines marker.char ((h :: hs).flatMap Hunk.render)),
          ← hlabels (FileChange.withTab c.oldLabel) (FileChange.withTab c.newLabel), ← markedLines_append]
        rfl
  unfold FileChange.render
  rw [← List.cons_append, markedLines_append, hhead, hbody, List.nil_append]

/-- The marked lines of a diff are its hunk lines with the marker, without the hidden ones. -/
theorem markedLines_sections (hmarker : marker ≠ .context) (d : GitDiff) :
    markedLines marker.char (d.flatMap FileChange.render) =
      (markedTexts marker (d.flatMap FileChange.hunkLines)).filter fun t => !hiddenBy marker.char t := by
  induction d with
  | nil => rfl
  | cons c d ih =>
    rw [List.flatMap_cons, markedLines_append, markedLines_section hmarker, ih, List.flatMap_cons, markedTexts_append,
      List.filter_append]

end

end FailureOrchestrator
