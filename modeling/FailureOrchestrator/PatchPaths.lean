import FailureOrchestrator.PatchFiles

namespace FailureOrchestrator

open Patches

namespace FileChange

/-- Both names need no quotes, and one of the two headers that the patch reader knows gives
them back: the `diff --git` line when the old name cannot be cut, or the labels. -/
structure Listed (c : FileChange) : Prop where
  old : Plain c.kind.old.name
  new : Plain c.kind.new.name
  header : NoInnerSide c.kind.old.name ∨
    (c.hunks ≠ [] ∧ c.kind.old.name.getLast? ≠ some ' ' ∧ c.kind.new.name.getLast? ≠ some ' ')

theorem diffGitLine_plain {c : FileChange} (ho : Plain c.kind.old.name) (hn : Plain c.kind.new.name) :
    c.diffGitLine =
      "diff --git a/".toList ++ (c.kind.old.name ++ (" b/".toList ++ c.kind.new.name)) := by
  rw [c.diffGitLine_eq, quoteName_plain ho, quoteName_plain hn]
  rfl

theorem plain_oneLine {name : Str} (h : Plain name) : '\n' ∉ name :=
  Unbroken.oneLine fun c hc => unbroken_of_not_needsQuote (h c hc)

/-- A section with hunks names both of its files in its labels. -/
theorem mem_labels {c : FileChange} (ho : Plain c.kind.old.name) (hn : Plain c.kind.new.name)
    (hol : c.kind.old.name.getLast? ≠ some ' ') (hnl : c.kind.new.name.getLast? ≠ some ' ') :
    c.kind.old.name ∈ labelPaths ("--- ".toList ++ withTab c.oldLabel) ("+++ ".toList ++ withTab c.newLabel) ∧
    c.kind.new.name ∈ labelPaths ("--- ".toList ++ withTab c.oldLabel) ("+++ ".toList ++ withTab c.newLabel) := by
  unfold oldLabel newLabel
  cases hk : c.kind with
  | add p =>
    rw [hk] at hn hnl
    have hnew := mem_labelPaths_new (p := p) hn hnl ("--- ".toList ++ withTab "/dev/null".toList)
    exact ⟨hnew, hnew⟩
  | delete p =>
    rw [hk] at ho hol
    have hold := mem_labelPaths_old (p := p) ho hol ("+++ ".toList ++ withTab "/dev/null".toList)
    exact ⟨hold, hold⟩
  | modify p =>
    rw [hk] at ho hol hn hnl
    exact ⟨mem_labelPaths_old (p := p) ho hol _, mem_labelPaths_new (p := p) hn hnl _⟩
  | rename o n | copy o n =>
    rw [hk] at ho hol hn hnl
    exact ⟨mem_labelPaths_old (p := o) ho hol _, mem_labelPaths_new (p := n) hn hnl _⟩

theorem bodyLines_labels {c : FileChange} (h : c.hunks ≠ []) :
    ∃ rest, c.bodyLines = ("--- ".toList ++ withTab c.oldLabel) :: ("+++ ".toList ++ withTab c.newLabel) :: rest := by
  unfold hunks at h
  unfold bodyLines
  cases hb : c.body with
  | binary => simp [hb] at h
  | hunks hs =>
    cases hs with
    | nil => simp [hb] at h
    | cons k ks => exact ⟨_, rfl⟩

variable [UnicodeData]

theorem linePaths_diffGitLine {c : FileChange} (ho : Plain c.kind.old.name) (hn : Plain c.kind.new.name)
    (hside : NoInnerSide c.kind.old.name) (rest : List Str) :
    linePaths c.diffGitLine rest = [c.kind.old.name, c.kind.new.name] := by
  have hstart : startsWith c.diffGitLine "diff --git ".toList = true := by
    rw [c.diffGitLine_eq]
    exact startsWith_append _ _
  unfold linePaths
  rw [if_pos hstart, diffGitLine_plain ho hn,
    diffGitPaths_plain c.kind.old.nonempty c.kind.new.nonempty (plain_oneLine ho) (plain_oneLine hn) hside]

theorem linePaths_labels (x y : Str) (rest : List Str) :
    linePaths ("--- ".toList ++ x) (("+++ ".toList ++ y) :: rest) =
      labelPaths ("--- ".toList ++ x) ("+++ ".toList ++ y) := by
  have h1 : startsWith ("--- ".toList ++ x) "diff --git ".toList = false := rfl
  unfold linePaths
  rw [h1, if_neg Bool.false_ne_true, if_pos (startsWith_append _ _)]
  dsimp only
  rw [if_pos (startsWith_append _ _)]

/-- The names of a listed section are found wherever the section stands. -/
theorem Listed.mem_headerPaths {c : FileChange} (h : c.Listed) (before after : List Str) :
    c.kind.old.name ∈ headerPaths (before ++ (c.render ++ after)) ∧
    c.kind.new.name ∈ headerPaths (before ++ (c.render ++ after)) := by
  rcases h.header with hside | ⟨hhunks, hol, hnl⟩
  · have hline := linePaths_diffGitLine h.old h.new hside
      (c.modeLines ++ c.moveLines ++ c.indexLines ++ c.bodyLines ++ after)
    have shape : before ++ (c.render ++ after) = before ++
        c.diffGitLine :: (c.modeLines ++ c.moveLines ++ c.indexLines ++ c.bodyLines ++ after) := rfl
    rw [shape]
    constructor
    · exact Patches.mem_headerPaths (by rw [hline]; simp) before
    · exact Patches.mem_headerPaths (by rw [hline]; simp) before
  · obtain ⟨rest, hbody⟩ := bodyLines_labels hhunks
    obtain ⟨hold, hnew⟩ := mem_labels h.old h.new hol hnl
    have shape : before ++ (c.render ++ after) =
        (before ++ (c.diffGitLine :: (c.modeLines ++ c.moveLines ++ c.indexLines))) ++
          ("--- ".toList ++ withTab c.oldLabel) :: (("+++ ".toList ++ withTab c.newLabel) :: (rest ++ after)) := by
      rw [render, hbody]
      simp
    rw [shape]
    constructor
    · exact Patches.mem_headerPaths (by rw [linePaths_labels]; exact hold) _
    · exact Patches.mem_headerPaths (by rw [linePaths_labels]; exact hnew) _

end FileChange

variable [UnicodeData]

theorem mem_parsePatchFiles {d : GitDiff} {c : FileChange} (hc : c ∈ d) (h : c.Listed) :
    c.kind.old.name ∈ parsePatchFiles d.render ∧ c.kind.new.name ∈ parsePatchFiles d.render := by
  obtain ⟨xs, ys, rfl⟩ := List.append_of_mem hc
  have shape : (xs ++ c :: ys).flatMap FileChange.render ++ [[]] =
      xs.flatMap FileChange.render ++ (c.render ++ (ys.flatMap FileChange.render ++ [[]])) := by
    simp
  unfold parsePatchFiles
  rw [splitChar_render, shape, mem_fromKeys, mem_fromKeys]
  exact h.mem_headerPaths _ _

end FailureOrchestrator
