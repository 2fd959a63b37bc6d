import FailureOrchestrator.GitDiffLines

namespace FailureOrchestrator

/-- A line without the carriage return of a CRLF ending. -/
def dropCr (s : Str) : Str := if s.getLast? = some '\r' then s.dropLast else s

theorem dropCr_cases (s : Str) : dropCr s = s ∨ s = dropCr s ++ ['\r'] := by
  unfold dropCr
  split
  · next h =>
    obtain ⟨u, rfl⟩ := List.getLast?_eq_some_iff.mp h
    exact .inr (by simp)
  · exact .inl rfl

theorem dropCr_of_unbroken {s : Str} (h : Unbroken s) : dropCr s = s := by
  unfold dropCr
  rw [if_neg]
  intro hlast
  exact absurd (h '\r' (List.mem_of_getLast? hlast)) (by decide)

/-- Only what is behind a line can end it in a carriage return. -/
theorem dropCr_append {s : Str} (hs : s.getLast? ≠ some '\r') (t : Str) : dropCr (s ++ t) = s ++ dropCr t := by
  by_cases ht : t = []
  · subst ht
    unfold dropCr
    rw [List.append_nil, if_neg hs]
    simp
  · unfold dropCr
    rw [List.getLast?_append_of_ne_nil _ ht]
    split
    · rw [List.dropLast_append_of_ne_nil ht]
    · rfl

theorem splitlines_line_cr {l : Str} (h : Unbroken (dropCr l)) (rest : Str) :
    splitlines (l ++ '\n' :: rest) = dropCr l :: splitlines rest := by
  have hcrlf : ∀ u, Unbroken u → splitlines (u ++ '\r' :: '\n' :: rest) = u :: splitlines rest := by
    intro u hu
    induction u with
    | nil => rfl
    | cons c u ih =>
      rw [List.cons_append, splitlines_cons (hu c List.mem_cons_self), ih fun d hd => hu d (List.mem_cons_of_mem _ hd)]
      rfl
  rcases dropCr_cases l with hl | hl
  · rw [hl] at h ⊢
    exact splitlines_line h rest
  · have hline : l ++ '\n' :: rest = dropCr l ++ '\r' :: '\n' :: rest := by
      conv_lhs => rw [hl]
      simp
    rw [hline, hcrlf _ h]

theorem splitlines_unlines_cr {ls : List Str} (h : ∀ l ∈ ls, Unbroken (dropCr l)) :
    splitlines (unlines ls) = ls.map dropCr := by
  induction ls with
  | nil => rfl
  | cons l ls ih =>
    rw [List.forall_mem_cons] at h
    have hshape : unlines (l :: ls) = l ++ '\n' :: unlines ls := by simp [unlines]
    rw [hshape, splitlines_line_cr h.1, ih h.2, List.map_cons]

def HunkLine.dropCr (l : HunkLine) : HunkLine where
  marker := l.marker
  text := FailureOrchestrator.dropCr l.text
  noEol := l.noEol
  oneLine := by
    intro h
    rcases dropCr_cases l.text with heq | heq
    · rw [heq] at h
      exact l.oneLine h
    · refine l.oneLine ?_
      rw [heq]
      exact List.mem_append_left _ h

def Hunk.dropCr (h : Hunk) : Hunk where
  oldStart := h.oldStart
  newStart := h.newStart
  heading := h.heading.map FailureOrchestrator.dropCr
  lines := h.lines.map HunkLine.dropCr
  headingOneLine := by
    intro t ht hn
    obtain ⟨u, hu, rfl⟩ := Option.mem_map.mp ht
    rcases dropCr_cases u with heq | heq
    · rw [heq] at hn
      exact h.headingOneLine u hu hn
    · refine h.headingOneLine u hu ?_
      rw [heq]
      exact List.mem_append_left _ hn

def FileChange.dropCr (c : FileChange) : FileChange :=
  { c with
    body := match c.body with
      | .binary => .binary
      | .hunks hs => .hunks (hs.map Hunk.dropCr) }

theorem Hunk.dropCr_counts (h : Hunk) : h.dropCr.oldCount = h.oldCount ∧ h.dropCr.newCount = h.newCount := by
  unfold Hunk.oldCount Hunk.newCount Hunk.dropCr
  rw [List.countP_map, List.countP_map]
  exact ⟨rfl, rfl⟩

theorem Hunk.dropCr_header (h : Hunk) : FailureOrchestrator.dropCr h.header = h.dropCr.header := by
  obtain ⟨hold, hnew⟩ := h.dropCr_counts
  unfold Hunk.header
  rw [hold, hnew]
  have hbare : ∀ s : Str, (s ++ " @@".toList).getLast? ≠ some '\r' := by
    intro s
    rw [List.getLast?_append, show " @@".toList.getLast? = some '@' from rfl, Option.some_or]
    decide
  cases hh : h.heading with
  | none =>
    have hnone : h.dropCr.heading = none := by simp [Hunk.dropCr, hh]
    rw [hnone]
    simp only [Option.elim_none, List.append_nil]
    unfold FailureOrchestrator.dropCr
    rw [if_neg (hbare _)]
    rfl
  | some t =>
    have hsome : h.dropCr.heading = some (FailureOrchestrator.dropCr t) := by simp [Hunk.dropCr, hh]
    rw [hsome]
    simp only [Option.elim_some]
    rw [dropCr_append (hbare _)]
    have hspace := dropCr_append (s := [' ']) (by decide) t
    rw [List.singleton_append, List.singleton_append] at hspace
    rw [hspace]
    rfl

theorem HunkLine.dropCr_render (l : HunkLine) : l.render.map FailureOrchestrator.dropCr = l.dropCr.render := by
  have hline : FailureOrchestrator.dropCr (l.marker.char :: l.text) = l.marker.char :: FailureOrchestrator.dropCr l.text := by
    have hmark : [l.marker.char].getLast? ≠ some '\r' := by cases l.marker <;> decide
    have happend := dropCr_append hmark l.text
    rwa [List.singleton_append, List.singleton_append] at happend
  unfold HunkLine.render
  rw [List.map_cons, hline]
  show _ :: _ = _ :: (if l.noEol then [noEolNote] else [])
  cases l.noEol with
  | false => rfl
  | true => rfl

theorem Hunk.dropCr_render (h : Hunk) : h.render.map FailureOrchestrator.dropCr = h.dropCr.render := by
  unfold Hunk.render
  rw [List.map_cons, h.dropCr_header, List.map_flatMap]
  show _ :: _ = _ :: (h.lines.map HunkLine.dropCr).flatMap HunkLine.render
  rw [List.flatMap_map]
  simp only [HunkLine.dropCr_render]

namespace FileChange

theorem dropCr_bodyLines (c : FileChange) : c.bodyLines.map FailureOrchestrator.dropCr = c.dropCr.bodyLines := by
  have hlabel : ∀ (mark label : Str), Unbroken mark → Unbroken label →
      FailureOrchestrator.dropCr (mark ++ withTab label) = mark ++ withTab label :=
    fun mark label hmark hl => dropCr_of_unbroken (hmark.append (withTab_unbroken hl))
  unfold bodyLines
  cases hb : c.body with
  | binary =>
    have hbinary : c.dropCr.body = .binary := by simp [dropCr, hb]
    have hopen := Unbroken.append (s := "Binary files ".toList) (by decide) c.oldLabel_unbroken
    have hline := ((hopen.append (t := " and ".toList) (by decide)).append c.newLabel_unbroken).append
      (t := " differ".toList) (by decide)
    rw [hbinary, List.map_singleton, dropCr_of_unbroken hline]
    rfl
  | hunks hs =>
    have hhunks : c.dropCr.body = .hunks (hs.map Hunk.dropCr) := by simp [dropCr, hb]
    rw [hhunks]
    cases hs with
    | nil => rfl
    | cons h hs =>
      have hrest : ((h :: hs).flatMap Hunk.render).map FailureOrchestrator.dropCr =
          ((h :: hs).map Hunk.dropCr).flatMap Hunk.render := by
        rw [List.map_flatMap, List.flatMap_map]
        simp only [Hunk.dropCr_render]
      have hold := hlabel "--- ".toList _ (by decide) c.oldLabel_unbroken
      have hnew := hlabel "+++ ".toList _ (by decide) c.newLabel_unbroken
      dsimp only
      rw [List.map_cons, List.map_cons, hrest, hold, hnew]
      rfl

theorem dropCr_render (c : FileChange) : c.render.map FailureOrchestrator.dropCr = c.dropCr.render := by
  have hkeep : ∀ {ls : List Str}, (∀ l ∈ ls, Unbroken l) → ls.map FailureOrchestrator.dropCr = ls := by
    intro ls hls
    exact (List.map_congr_left fun l hl => dropCr_of_unbroken (hls l hl)).trans (List.map_id _)
  unfold render
  rw [List.map_cons, List.map_append, List.map_append, List.map_append, dropCr_of_unbroken c.diffGitLine_unbroken,
    hkeep c.modeLines_unbroken, hkeep c.moveLines_unbroken, hkeep c.indexLines_unbroken, c.dropCr_bodyLines]
  rfl

/-- Apart from a final carriage return no line of a hunk holds a line separator. -/
def LinesEnded (c : FileChange) : Prop := c.dropCr.LinesUnbroken

end FileChange

/-- The readers' lines are git's lines, without their carriage returns. -/
theorem splitlines_render_cr {d : GitDiff} (h : ∀ c ∈ d, c.LinesEnded) :
    splitlines d.render = (d.map FileChange.dropCr).flatMap FileChange.render := by
  have hlines : (d.flatMap FileChange.render).map dropCr = (d.map FileChange.dropCr).flatMap FileChange.render := by
    rw [List.map_flatMap, List.flatMap_map]
    simp only [FileChange.dropCr_render]
  rw [← hlines]
  refine splitlines_unlines_cr fun l hl => ?_
  obtain ⟨c, hc, hlc⟩ := List.mem_flatMap.mp hl
  refine FileChange.render_unbroken (h c hc) _ ?_
  rw [← c.dropCr_render]
  exact List.mem_map_of_mem hlc

end FailureOrchestrator
