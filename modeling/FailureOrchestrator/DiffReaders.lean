import FailureOrchestrator.DiffStat

namespace FailureOrchestrator

namespace FileChange

/-- The two label lines give the path that names the file. -/
theorem diffPath_labels (c : FileChange) :
    (if diffPath ("+++ ".toList ++ withTab c.newLabel) = "/dev/null".toList then
      diffPath ("--- ".toList ++ withTab c.oldLabel) else diffPath ("+++ ".toList ++ withTab c.newLabel)) =
      labelPath c.namingLabel := by
  cases hdel : c.isDelete with
  | true =>
    obtain ⟨p, hk⟩ : ∃ p, c.kind = .delete p := by
      unfold isDelete at hdel
      split at hdel
      next p hk => exact ⟨p, hk⟩
      next => cases hdel
    have hnew : c.newLabel = "/dev/null".toList := by simp [newLabel, hk]
    have hold : c.oldLabel = quoteName "a/".toList c.kind.old.name := by simp [oldLabel, hk]
    have hnaming : c.namingLabel = c.oldLabel := by simp [namingLabel, hk]
    have hnull : diffPath ("+++ ".toList ++ withTab "/dev/null".toList) = "/dev/null".toList := by decide
    rw [hnaming, hnew, hold, if_pos hnull]
    exact diffPath_quoteName (.inl rfl) _ _ rfl
  | false =>
    have hlabel := labelPath_newLabel_ne_devNull hdel
    have hnew : c.newLabel = quoteName "b/".toList c.kind.new.name := by
      unfold newLabel
      split
      next p hk => simp [isDelete, hk] at hdel
      next => rfl
    have hnaming : c.namingLabel = c.newLabel := by
      unfold namingLabel
      split
      next p hk => simp [isDelete, hk] at hdel
      next => rfl
    rw [hnaming]
    rw [hnew] at hlabel ⊢
    rw [diffPath_quoteName (.inr rfl) _ _ rfl, if_neg hlabel]

/-- A label that reads as empty leaves no other path either. -/
theorem movedPath_of_labelPath_nil {c : FileChange} (h : labelPath c.namingLabel = []) : c.movedPath = [] := by
  have hname : ∀ {side name : Str}, IsSide side → name ≠ [] → labelPath (quoteName side name) = [] →
      Plain name ∧ rstrip name = [] ∧ ∃ u, name = u ++ [' '] := by
    intro side name hside hne hnil
    by_cases hp : Plain name
    · rw [labelPath_plain hside hp] at hnil
      obtain rfl | ⟨u, d, rfl⟩ := List.eq_nil_or_concat name
      · exact absurd rfl hne
      · rw [List.concat_eq_append] at hp hnil ⊢
        have hspace : isSpace d = true := by
          by_contra hd
          rw [Bool.not_eq_true] at hd
          rw [rstrip_concat hd] at hnil
          exact List.append_ne_nil_of_right_ne_nil _ (List.cons_ne_nil _ _) hnil
        have hd : d = ' ' := by
          have hplain := isSpace_of_not_needsQuote (hp d (by simp))
          rw [hspace] at hplain
          exact beq_iff_eq.mp hplain.symm
        exact ⟨hp, hnil, u, by rw [hd]⟩
    · rw [labelPath_quoted hside hp, quoteName_quoted hp] at hnil
      simp at hnil
  obtain ⟨hplain, hstrip, u, hu⟩ : Plain c.kind.new.name ∧ rstrip c.kind.new.name = [] ∧
      ∃ u, c.kind.new.name = u ++ [' '] := by
    unfold namingLabel newLabel oldLabel at h
    cases hk : c.kind with
    | delete p =>
      rw [hk] at h
      exact hname (.inl rfl) p.nonempty h
    | modify p | add p =>
      rw [hk] at h
      exact hname (.inr rfl) p.nonempty h
    | rename o n | copy o n =>
      rw [hk] at h
      exact hname (.inr rfl) n.nonempty h
  have hfirst : c.firstPath = [] := by
    have hword : (splitChar ' ' ("b/".toList ++ c.kind.new.name)).getLastD [] = [] := by
      rw [hu, ← List.append_assoc]
      unfold splitChar
      rw [List.splitOn_append_cons_self]
      simp
    unfold firstPath
    rw [quoteName_plain hplain, hword]
    rfl
  unfold movedPath
  split
  next o n hk =>
    have hn : c.kind.new = n := by rw [hk]; rfl
    rw [hn] at hplain hstrip
    have hall : ∀ d ∈ n.name, isSpace d = true := List.rdropWhile_eq_nil_iff.mp hstrip
    rw [quoteName_plain hplain]
    unfold strip lstrip
    rw [List.nil_append, List.dropWhile_eq_nil_iff.mpr hall]
    rfl
  next => exact hfirst

theorem readPath_of_hunks {c : FileChange} (h : c.hunks ≠ []) : c.readPath = labelPath c.namingLabel := by
  unfold readPath
  split
  next hnil => exact absurd hnil h
  next =>
    split
    next hempty => rw [movedPath_of_labelPath_nil (List.isEmpty_iff.mp hempty), List.isEmpty_iff.mp hempty]
    next => rfl

/-- The files that the report lists for a section. -/
def stats (c : FileChange) : List FileStat := if c.hunks.isEmpty then [] else [c.stat]

section

variable [UnicodeData]

theorem readStats_headLines {st : StatState} (hidle : st.Idle) (c : FileChange) (ms : List Str) :
    readStats st (c.diffGitLine :: (c.modeLines ++ c.moveLines ++ c.indexLines ++ ms)) = readStats st ms := by
  have hhead : readStats st (c.diffGitLine :: (c.modeLines ++ c.moveLines ++ c.indexLines)) = .ok st := by
    refine readStats_ignored hidle fun l hl => ?_
    obtain ⟨a, t, rfl, ha⟩ := c.headLines_letter l hl
    refine ⟨a, t, rfl, ?_, ?_, ?_⟩
    · rintro rfl
      exact absurd ha (by decide)
    · rintro rfl
      exact absurd ha (by decide)
    · rintro rfl
      exact absurd ha (by decide)
  rw [← List.cons_append, readStats_append hhead]

theorem readStats_labels {st : StatState} (hidle : st.Idle) (c : FileChange) (ms : List Str) :
    ∃ st', readStats st (("--- ".toList ++ withTab c.oldLabel) :: ("+++ ".toList ++ withTab c.newLabel) :: ms) =
      readStats st' ms ∧ st'.done = st.files ∧ st'.current = some { path := labelPath c.namingLabel } ∧ st'.Idle := by
  let mid : StatState := { st with oldPath := diffPath ("--- ".toList ++ withTab c.oldLabel) }
  have hold : statStep st ("--- ".toList ++ withTab c.oldLabel) = .ok mid := by
    rw [statStep_idle hidle]
    unfold statHeader
    rw [if_pos (startsWith_append _ _)]
  have hmid : mid.Idle := hidle
  have hnew : statStep mid ("+++ ".toList ++ withTab c.newLabel) =
      .ok { mid with done := mid.files, current := some { path := labelPath c.namingLabel } } := by
    have hminus : startsWith ("+++ ".toList ++ withTab c.newLabel) "--- ".toList = false := rfl
    rw [statStep_idle hmid]
    unfold statHeader
    rw [hminus, if_neg (by decide), if_pos (startsWith_append _ _), ← c.diffPath_labels]
  refine ⟨{ mid with done := mid.files, current := some { path := labelPath c.namingLabel } }, ?_, rfl, rfl, hidle⟩
  rw [readStats_cons hold, readStats_cons hnew]

theorem readStats_section {st : StatState} (hidle : st.Idle) {c : FileChange} (hc : ∀ h ∈ c.hunks, h.Countable) :
    ∃ st', readStats st c.render = .ok st' ∧ st'.files = st.files ++ c.stats ∧ st'.Idle := by
  unfold render
  rw [readStats_headLines hidle]
  unfold stats
  unfold hunks at hc ⊢
  unfold bodyLines
  cases hb : c.body with
  | binary =>
    refine ⟨st, readStats_ignored hidle fun l hl => ?_, by simp, hidle⟩
    rw [List.mem_singleton.mp hl]
    exact ⟨'B', _, rfl, by decide⟩
  | hunks hs =>
    rw [hb] at hc
    cases hs with
    | nil => exact ⟨st, rfl, by simp, hidle⟩
    | cons h hs =>
      obtain ⟨mid, hlabels, hdone, hcur, hmid⟩ := readStats_labels hidle c ((h :: hs).flatMap Hunk.render)
      obtain ⟨st', hrun, hdone', hcur', hidle'⟩ := readStats_hunks (h :: hs) hmid hcur hc
      refine ⟨st', by rw [hlabels, hrun], ?_, hidle'⟩
      unfold StatState.files
      rw [hdone', hdone, hcur']
      unfold stat hunkLines hunks
      rw [hb]
      rfl

end

end FileChange

section

variable [UnicodeData]

theorem readStats_sections (d : GitDiff) {st : StatState} (hidle : st.Idle) (hc : d.Countable) :
    ∃ st', readStats st (d.flatMap FileChange.render) = .ok st' ∧ st'.files = st.files ++ d.flatMap FileChange.stats ∧
      st'.Idle := by
  induction d generalizing st with
  | nil => exact ⟨st, rfl, by simp, hidle⟩
  | cons c d ih =>
    unfold GitDiff.Countable at hc
    rw [List.forall_mem_cons] at hc
    obtain ⟨mid, hm, hf, hi⟩ := FileChange.readStats_section hidle hc.1
    obtain ⟨st', hr, hf', hi'⟩ := ih hi hc.2
    refine ⟨st', ?_, ?_, hi'⟩
    · rw [List.flatMap_cons, readStats_append hm, hr]
    · rw [hf', hf, List.flatMap_cons, List.append_assoc]

end

theorem start_statIdle : StatState.Idle {} := by
  unfold StatState.Idle
  decide

end FailureOrchestrator
