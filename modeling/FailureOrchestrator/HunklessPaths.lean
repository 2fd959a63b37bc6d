import FailureOrchestrator.PatchPaths
import FailureOrchestrator.RegexEnds

namespace FailureOrchestrator

open Regex Patches

namespace Patches

/-- A name that can be cut has a first place to cut it. -/
theorem exists_first_side {name : Str} (h : ¬ NoInnerSide name) :
    ∃ xs ys, xs ≠ [] ∧ NoInnerSide xs ∧ name = xs ++ " b/".toList ++ ys := by
  induction hn : name.length using Nat.strong_induction_on generalizing name with
  | _ n ih =>
    unfold NoInnerSide at h
    push Not at h
    obtain ⟨xs, ys, hne, hsplit⟩ := h
    by_cases hxs : NoInnerSide xs
    · exact ⟨xs, ys, hne, hxs, hsplit⟩
    · have hlt : xs.length < n := by
        rw [← hn, hsplit]
        simp
      obtain ⟨us, vs, hus, hfirst, hsub⟩ := ih xs.length hlt hxs rfl
      refine ⟨us, vs ++ " b/".toList ++ ys, hus, hfirst, ?_⟩
      rw [hsplit, hsub]
      simp

variable [UnicodeData]

/-- A line that nowhere goes on with the second side names nothing. -/
theorem diffGitPaths_none {t : Str} (h : NoInnerSide t) : diffGitPaths ("diff --git a/".toList ++ t) = [] := by
  have stuck : ∀ m : Cursor, (∃ u v g, u ≠ [] ∧ t = u ++ v ∧ ∃ b, m = ⟨b, v, g⟩) →
      (cat [lit " b/", .grp 2 (some1 dot), .eos]).matchesAt m = [] := by
    rintro m ⟨u, v, g, hu, ht, b, rfl⟩
    have hpre : ¬ (" b/".toList).isPrefixOf v = true := by
      intro hp
      obtain ⟨w, hw⟩ := List.isPrefixOf_iff_prefix.mp hp
      exact h u w hu (by rw [ht, ← hw]; simp)
    rw [matchesAt_cat_cons, matchesAt_lit]
    unfold Cursor.readText
    rw [if_neg hpre]
    rfl
  have none : ((Regex.grp 1 (some1Lazy dot)).matchesAt ⟨("diff --git a/".toList).reverse, t, []⟩).flatMap
      (cat [lit " b/", .grp 2 (some1 dot), .eos]).matchesAt = [] := by
    rw [List.flatMap_eq_nil_iff]
    intro m hm
    refine stuck m ?_
    obtain ⟨m', hm', rfl⟩ := List.mem_map.mp hm
    cases t with
    | nil => simp [some1Lazy, matchesAt, dot, stepChar] at hm'
    | cons d t =>
      simp only [some1Lazy, manyLazy, matchesAt, dot, stepChar] at hm'
      split at hm'
      · rw [List.flatMap_singleton] at hm'
        obtain ⟨u, v, ht, -, rfl⟩ := mem_star_cls_iff.mp hm'
        exact ⟨d :: u, v, _, by simp, by rw [ht]; rfl, _, rfl⟩
      · simp at hm'
  have whole : matchStart diffGitRe ("diff --git a/".toList ++ t) = Option.none := by
    unfold matchStart diffGitRe
    rw [matchesAt_cat_cons]
    change (([start ("diff --git a/".toList ++ t)]).flatMap _).head? = _
    rw [List.flatMap_singleton, matchesAt_cat_cons, matchesAt_lit, start, readText_append, List.flatMap_singleton,
      List.append_nil, matchesAt_cat_cons, none]
    rfl
  unfold diffGitPaths
  rw [whole]

/-- A line whose first name is quoted names nothing. -/
theorem diffGitPaths_quoted (t : Str) : diffGitPaths ("diff --git \"".toList ++ t) = [] := by
  have whole : matchStart diffGitRe ("diff --git \"".toList ++ t) = none := by
    unfold matchStart diffGitRe
    rw [matchesAt_cat_cons]
    change (([start ("diff --git \"".toList ++ t)]).flatMap _).head? = _
    rw [List.flatMap_singleton, matchesAt_cat_cons, matchesAt_lit]
    rfl
  unfold diffGitPaths
  rw [whole]

theorem headerPaths_ignored {ls : List Str} (h : ∀ l ∈ ls, startsWith l "diff --git ".toList = false ∧
    startsWith l "--- ".toList = false) : headerPaths ls = [] := by
  induction ls with
  | nil => rfl
  | cons l ls ih =>
    obtain ⟨h1, h2⟩ := h l (by simp)
    have hl : linePaths l ls = [] := by
      unfold linePaths
      rw [h1, h2]
      rfl
    rw [headerPaths, hl, ih fun x hx => h x (by simp [hx])]
    rfl

end Patches

namespace FileChange

/-- The names that the `diff --git` line alone gives back. The second case is a pair of names
that the reader swaps. -/
def LineListed (c : FileChange) : Prop :=
  Plain c.kind.old.name ∧ Plain c.kind.new.name ∧
    (NoInnerSide c.kind.old.name ∨ ∃ ys, NoInnerSide c.kind.new.name ∧
      c.kind.old.name = c.kind.new.name ++ " b/".toList ++ ys ∧
      c.kind.old.name = ys ++ " b/".toList ++ c.kind.new.name)

theorem diffGitLine_quoted_old {c : FileChange} (ho : ¬ Plain c.kind.old.name) :
    ∃ t, c.diffGitLine = "diff --git \"".toList ++ t := by
  rw [c.diffGitLine_eq, quoteName_quoted ho]
  exact ⟨_, rfl⟩

theorem diffGitLine_quoted_new {c : FileChange} (ho : Plain c.kind.old.name) (hn : ¬ Plain c.kind.new.name) :
    ∃ t, c.diffGitLine = "diff --git a/".toList ++ (c.kind.old.name ++ ' ' :: '"' :: (t ++ ['"'])) := by
  rw [c.diffGitLine_eq, quoteName_plain ho, quoteName_quoted hn]
  exact ⟨_, rfl⟩

theorem quote_not_mem_plain {name : Str} (h : Plain name) : '"' ∉ name := by
  intro hm
  exact absurd (h '"' hm) (by decide)

variable [UnicodeData]

theorem diffGitPaths_quoted_new {o t : Str} (ho : Plain o) (ht : '\n' ∉ t) :
    o ∉ diffGitPaths ("diff --git a/".toList ++ (o ++ ' ' :: '"' :: (t ++ ['"']))) := by
  by_cases hside : NoInnerSide (o ++ ' ' :: '"' :: (t ++ ['"']))
  · rw [diffGitPaths_none hside]
    simp
  · obtain ⟨xs, ys, hne, hfirst, hsplit⟩ := exists_first_side hside
    have hline : '\n' ∉ o ++ ' ' :: '"' :: (t ++ ['"']) := by
      have := plain_oneLine ho
      simp [this, ht]
    have hxs : '\n' ∉ xs := fun hm => hline (by rw [hsplit]; simp [hm])
    have hys : '\n' ∉ ys := fun hm => hline (by rw [hsplit]; simp [hm])
    have hlast : (o ++ ' ' :: '"' :: (t ++ ['"'])).getLast? = some '"' := by
      have shape : o ++ ' ' :: '"' :: (t ++ ['"']) = (o ++ ' ' :: '"' :: t) ++ ['"'] := by simp
      rw [shape, List.getLast?_concat]
    have hyne : ys ≠ [] := by
      rintro rfl
      rw [hsplit, List.append_nil, List.getLast?_append_of_ne_nil _ (by decide)] at hlast
      exact absurd hlast (by decide)
    have shape : xs ++ " b/".toList ++ ys = xs ++ (" b/".toList ++ ys) := by simp
    rw [hsplit, shape, diffGitPaths_plain hne hyne hxs hys hfirst]
    intro hm
    rcases List.mem_pair.mp hm with heq | heq
    · have hcut : ' ' :: '"' :: (t ++ ['"']) = " b/".toList ++ ys := by
        have := hsplit
        rw [shape, ← heq] at this
        exact List.append_cancel_left this
      have hsecond := congrArg (fun l => l[1]?) hcut
      exact absurd hsecond (by simp)
    · rw [hsplit, List.getLast?_append_of_ne_nil _ hyne, ← heq] at hlast
      exact quote_not_mem_plain ho (List.mem_of_getLast? hlast)

/-- The `diff --git` line names both files exactly when they are line-listed. -/
theorem diffGitLine_names_iff (c : FileChange) :
    c.kind.old.name ∈ diffGitPaths c.diffGitLine ∧ c.kind.new.name ∈ diffGitPaths c.diffGitLine ↔
      c.LineListed := by
  by_cases ho : Plain c.kind.old.name
  swap
  · obtain ⟨t, ht⟩ := diffGitLine_quoted_old ho
    rw [ht, diffGitPaths_quoted]
    exact ⟨fun h => absurd h.1 (by simp), fun h => absurd h.1 ho⟩
  by_cases hn : Plain c.kind.new.name
  swap
  · obtain ⟨t, ht⟩ := diffGitLine_quoted_new ho hn
    have hone : '\n' ∉ t := by
      have := c.diffGitLine_unbroken.oneLine
      rw [ht] at this
      intro hm
      exact this (by simp [hm])
    rw [ht]
    exact ⟨fun h => absurd h.1 (diffGitPaths_quoted_new ho hone), fun h => absurd h.2.1 hn⟩
  rw [diffGitLine_plain ho hn]
  have hol := plain_oneLine ho
  have hnl := plain_oneLine hn
  by_cases hside : NoInnerSide c.kind.old.name
  · rw [diffGitPaths_plain c.kind.old.nonempty c.kind.new.nonempty hol hnl hside]
    exact ⟨fun _ => ⟨ho, hn, Or.inl hside⟩, fun _ => by simp⟩
  -- The reader cuts the old name at its first inner side.
  have cut : ∀ {xs ys}, xs ≠ [] → NoInnerSide xs → c.kind.old.name = xs ++ " b/".toList ++ ys →
      diffGitPaths ("diff --git a/".toList ++ (c.kind.old.name ++ (" b/".toList ++ c.kind.new.name))) =
        [xs, ys ++ " b/".toList ++ c.kind.new.name] := by
    intro xs ys hne hfirst hsplit
    have shape : c.kind.old.name ++ (" b/".toList ++ c.kind.new.name) =
        xs ++ (" b/".toList ++ (ys ++ " b/".toList ++ c.kind.new.name)) := by
      rw [hsplit]
      simp
    have hxs : '\n' ∉ xs := fun hm => hol (by rw [hsplit]; simp [hm])
    have hys : '\n' ∉ ys := fun hm => hol (by rw [hsplit]; simp [hm])
    rw [shape]
    exact diffGitPaths_plain hne (by simp) hxs (by simp [hys, hnl]) hfirst
  constructor
  · rintro ⟨hom, hnm⟩
    obtain ⟨xs, ys, hne, hfirst, hsplit⟩ := exists_first_side hside
    have hlen : c.kind.old.name.length = xs.length + 3 + ys.length := by
      rw [hsplit]
      simp
      omega
    rw [cut hne hfirst hsplit] at hom hnm
    have hold : c.kind.old.name = ys ++ " b/".toList ++ c.kind.new.name := by
      rcases List.mem_pair.mp hom with heq | heq
      · have := congrArg List.length heq
        omega
      · exact heq
    have hnew : c.kind.new.name = xs := by
      rcases List.mem_pair.mp hnm with heq | heq
      · exact heq
      · have := congrArg List.length heq
        simp at this
        omega
    exact ⟨ho, hn, Or.inr ⟨ys, hnew ▸ hfirst, hnew ▸ hsplit, hold⟩⟩
  · rintro ⟨_, _, hcase | ⟨ys, hfirst, hsplit, hold⟩⟩
    · exact absurd hcase hside
    · rw [cut c.kind.new.nonempty hfirst hsplit, ← hold]
      simp

/-- In a section without hunks no other line names a file. -/
theorem headerPaths_hunkless {c : FileChange} (hh : c.hunks = []) :
    headerPaths (c.render ++ [[]]) = diffGitPaths c.diffGitLine := by
  have hstart : startsWith c.diffGitLine "diff --git ".toList = true := by
    rw [c.diffGitLine_eq]
    exact startsWith_append _ _
  have rest : headerPaths ((c.modeLines ++ c.moveLines ++ c.indexLines ++ c.bodyLines) ++ [[]]) = [] := by
    refine headerPaths_ignored fun l hl => ?_
    simp only [List.mem_append, List.mem_singleton] at hl
    rcases hl with (((hl | hl) | hl) | hl) | rfl
    · unfold modeLines at hl
      split at hl
      · rw [List.mem_singleton.mp hl]
        exact ⟨rfl, rfl⟩
      · rw [List.mem_singleton.mp hl]
        exact ⟨rfl, rfl⟩
      · split at hl
        · simp at hl
        · rcases List.mem_pair.mp hl with rfl | rfl <;> exact ⟨rfl, rfl⟩
    · unfold moveLines at hl
      split at hl
      · simp only [List.mem_cons, List.not_mem_nil, or_false] at hl
        rcases hl with rfl | rfl | rfl <;> exact ⟨rfl, rfl⟩
      · simp only [List.mem_cons, List.not_mem_nil, or_false] at hl
        rcases hl with rfl | rfl | rfl <;> exact ⟨rfl, rfl⟩
      · simp at hl
    · unfold indexLines at hl
      split at hl
      · simp at hl
      · rw [List.mem_singleton.mp hl]
        exact ⟨rfl, rfl⟩
    · unfold bodyLines at hl
      unfold hunks at hh
      split at hl
      · rw [List.mem_singleton.mp hl]
        exact ⟨rfl, rfl⟩
      · simp at hl
      · next hb => simp [hb] at hh
    · exact ⟨rfl, rfl⟩
  have shape : c.render ++ [[]] =
      c.diffGitLine :: ((c.modeLines ++ c.moveLines ++ c.indexLines ++ c.bodyLines) ++ [[]]) := rfl
  rw [shape, headerPaths, rest, List.append_nil]
  unfold linePaths
  rw [if_pos hstart]

/-- The changes whose names the patch reader gives back. -/
def Nameable (c : FileChange) : Prop := c.LineListed ∨ c.Listed

/-- Both names of the change are among the files of the diff. -/
def NamedIn (c : FileChange) (d : GitDiff) : Prop :=
  c.kind.old.name ∈ parsePatchFiles d.render ∧ c.kind.new.name ∈ parsePatchFiles d.render

theorem namedIn_of_nameable {c : FileChange} (h : c.Nameable) {d : GitDiff} (hc : c ∈ d) : c.NamedIn d := by
  rcases h with h | h
  · obtain ⟨hold, hnew⟩ := c.diffGitLine_names_iff.mpr h
    obtain ⟨xs, ys, rfl⟩ := List.append_of_mem hc
    have hstart : startsWith c.diffGitLine "diff --git ".toList = true := by
      rw [c.diffGitLine_eq]
      exact startsWith_append _ _
    have shape : (xs ++ c :: ys).flatMap render ++ [[]] = xs.flatMap render ++ c.diffGitLine ::
        ((c.modeLines ++ c.moveLines ++ c.indexLines ++ c.bodyLines) ++ (ys.flatMap render ++ [[]])) := by
      simp [render]
    have line : ∀ rest, linePaths c.diffGitLine rest = diffGitPaths c.diffGitLine := by
      intro rest
      unfold linePaths
      rw [if_pos hstart]
    unfold NamedIn parsePatchFiles
    rw [splitChar_render, shape, mem_fromKeys, mem_fromKeys]
    exact ⟨Patches.mem_headerPaths (by rw [line]; exact hold) _,
      Patches.mem_headerPaths (by rw [line]; exact hnew) _⟩
  · exact mem_parsePatchFiles hc h

theorem hunkless_nameable_iff {c : FileChange} (hh : c.hunks = []) :
    (∀ d : GitDiff, c ∈ d → c.NamedIn d) ↔ c.Nameable := by
  constructor
  · intro hall
    have hone := hall [c] (by simp)
    unfold NamedIn parsePatchFiles at hone
    rw [splitChar_render, mem_fromKeys, mem_fromKeys] at hone
    have shape : List.flatMap render [c] ++ [[]] = c.render ++ [[]] := by simp
    rw [shape, headerPaths_hunkless hh] at hone
    exact Or.inl (c.diffGitLine_names_iff.mp hone)
  · intro h d hc
    exact namedIn_of_nameable h hc

end FileChange

/-- Every nameable change is listed under its real names, among nameable and readable changes
no path that the diff reader reports is missing, and a section without hunks is listed in
every diff only if it is nameable. -/
theorem parsePatchFiles_complete [UnicodeData] :
    (∀ (d : GitDiff) (c : FileChange), c ∈ d → c.Nameable → c.NamedIn d) ∧
    (∀ d : GitDiff, (∀ c ∈ d, c.Nameable ∧ c.Readable) →
      ∃ fs, parseUnifiedDiff d.render = .ok fs ∧ ∀ f ∈ fs, f.path ∈ parsePatchFiles d.render ∧
        (f.renamedFrom ≠ [] → f.renamedFrom ∈ parsePatchFiles d.render)) ∧
    (∀ c : FileChange, c.hunks = [] → ((∀ d : GitDiff, c ∈ d → c.NamedIn d) ↔ c.Nameable)) := by
  refine ⟨fun d c hc h => FileChange.namedIn_of_nameable h hc, fun d h => ?_,
    fun c hh => FileChange.hunkless_nameable_iff hh⟩
  refine ⟨_, parseUnifiedDiff_of_readable fun c hc => (h c hc).2, fun f hf => ?_⟩
  obtain ⟨c, hc, rfl⟩ := List.mem_map.mp hf
  obtain ⟨hold, hnew⟩ := FileChange.namedIn_of_nameable (h c hc).1 hc
  refine ⟨hnew, fun hne => ?_⟩
  unfold FileChange.fileDiff FileChange.renameSource at hne ⊢
  cases hk : c.kind with
  | rename o n =>
    rw [hk] at hold
    exact hold
  | modify | add | delete | copy => simp [hk] at hne

/-- A file made executable whose name git quotes. -/
def accentedModeChange : FileChange where
  kind := .modify ⟨"auth/é.py".toList, by decide, by decide⟩
  oldMode := .regular
  newMode := .executable
  index := none
  similarity := 0
  body := .hunks []

theorem accentedModeChange_files : @parsePatchFiles asciiData (GitDiff.render [accentedModeChange]) = [] := by
  rfl

/-- The quoted name matches no header that the patch reader knows, so it lists nothing. -/
theorem parsePatchFiles_not_complete : ¬ ∀ (u : UnicodeData) (d : GitDiff) (c : FileChange), c ∈ d →
    @FileChange.NamedIn u c d := by
  intro h
  have hnamed := (h asciiData [accentedModeChange] accentedModeChange (by simp)).1
  rw [accentedModeChange_files] at hnamed
  simp at hnamed

end FailureOrchestrator
