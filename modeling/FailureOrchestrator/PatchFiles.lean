import FailureOrchestrator.DiffFaithful

namespace FailureOrchestrator

open Regex

namespace Patches

def diffGitRe : Regex :=
  cat [.bos, lit "diff --git a/", .grp 1 (some1Lazy dot), lit " b/", .grp 2 (some1 dot), .eos]

/-- `path.removeprefix(side)`. -/
def removeSide (side path : Str) : Str := if startsWith path side then path.drop side.length else path

/-- `_strip_prefix` of the patch reader: the quotes of a quoted name go, its escapes stay. -/
def stripPrefix (path side : Str) : Str :=
  let path := strip (beforeFirst '\t' path)
  let path := if startsWith path ['"'] && endsWith path ['"'] then (path.drop 1).dropLast else path
  removeSide side path

variable [UnicodeData]

/-- The two names that a `diff --git` line gives when they are not quoted. -/
def diffGitPaths (line : Str) : List Str :=
  match matchStart diffGitRe line with
  | some m => [(m.group 1).getD [], (m.group 2).getD []]
  | none => []

def labelPaths (old new : Str) : List Str :=
  [stripPrefix (old.drop 4) "a/".toList, stripPrefix (new.drop 4) "b/".toList].filter fun path =>
    !path.isEmpty && path != "/dev/null".toList

/-- What a line names, seen with the lines after it. -/
def linePaths (line : Str) (rest : List Str) : List Str :=
  if startsWith line "diff --git ".toList then diffGitPaths line
  else if startsWith line "--- ".toList then
    match rest with
    | next :: _ => if startsWith next "+++ ".toList then labelPaths line next else []
    | [] => []
  else []

def headerPaths : List Str → List Str
  | [] => []
  | line :: rest => linePaths line rest ++ headerPaths rest

end Patches

def parsePatchFiles [UnicodeData] (patch : Str) : List Str := fromKeys (Patches.headerPaths (splitChar '\n' patch))

namespace Patches

theorem mem_headerPaths [UnicodeData] {x : Str} {line : Str} {rest : List Str} (h : x ∈ linePaths line rest)
    (before : List Str) : x ∈ headerPaths (before ++ line :: rest) := by
  induction before with
  | nil => exact List.mem_append_left _ h
  | cons l before ih => exact List.mem_append_right _ ih

/-- Where a plain name can be cut: after its first character, at ` b/`. -/
def NoInnerSide (name : Str) : Prop := ∀ xs ys, xs ≠ [] → name ≠ xs ++ " b/".toList ++ ys

theorem readText_early {name n xs ys : Str} {a y : Char} (h : NoInnerSide name) (hsplit : name = a :: (xs ++ y :: ys))
    (b : Str) (g : List (Nat × Str)) :
    Cursor.readText ⟨b, y :: (ys ++ (" b/".toList ++ n)), g⟩ " b/".toList = [] := by
  unfold Cursor.readText
  rw [if_neg]
  intro hpre
  obtain ⟨t, ht⟩ := List.isPrefixOf_iff_prefix.mp hpre
  -- The side cannot begin inside the name and end in the side that follows it.
  have hy : y = ' ' := by
    have := congrArg List.head? ht
    simpa using this.symm
  have ht' : "b/".toList ++ t = ys ++ (" b/".toList ++ n) := (List.cons.inj ht).2
  cases ys with
  | nil => exact absurd (List.cons.inj ht').1 (by decide)
  | cons y1 ys =>
    have h1 : y1 = 'b' := ((List.cons.inj ht').1).symm
    have ht'' : "/".toList ++ t = ys ++ (" b/".toList ++ n) := (List.cons.inj ht').2
    cases ys with
    | nil => exact absurd (List.cons.inj ht'').1 (by decide)
    | cons y2 ys =>
      have h2 : y2 = '/' := ((List.cons.inj ht'').1).symm
      refine h (a :: xs) ys (by simp) ?_
      rw [hsplit, hy, h1, h2]
      simp

theorem diffGitPaths_plain [UnicodeData] {o n : Str} (ho : o ≠ []) (hn : n ≠ []) (hol : '\n' ∉ o) (hnl : '\n' ∉ n)
    (h : NoInnerSide o) :
    diffGitPaths ("diff --git a/".toList ++ (o ++ (" b/".toList ++ n))) = [o, n] := by
  obtain ⟨a, o', rfl⟩ := List.exists_cons_of_ne_nil ho
  have isDot : ∀ {s : Str}, '\n' ∉ s → ∀ c ∈ s, (c != '\n') = true := by
    intro s hs c hc
    simp only [bne_iff_ne, ne_eq]
    rintro rfl
    exact hs hc
  have hall := isDot hol
  have stopEos : ∀ b c rest g, (c != '\n') = true → (cat [.eos]).matchesAt ⟨b, c :: rest, g⟩ = [] := by
    intro b c rest g hc
    have hne : c ≠ '\n' := by simpa using hc
    simp [matchesAt, hne]
  have tail : ∀ b g, (cat [lit " b/", .grp 2 (some1 dot), .eos]).matchesAt ⟨b, " b/".toList ++ n, g⟩ =
      [⟨n.reverse ++ ((" b/".toList).reverse ++ b), [], (2, n) :: g⟩] := by
    intro b g
    have run := grp_some1_run (k := (cat [.eos]).matchesAt) stopEos hn [] (isDot hnl) (by simp) 2
      ((" b/".toList).reverse ++ b) g
    rw [matchesAt_cat_cons, matchesAt_lit, readText_append, List.flatMap_singleton, matchesAt_cat_cons]
    rw [List.append_nil] at run
    refine run.trans ?_
    simp [matchesAt]
  have opened : ∀ rs t, (cat (.bos :: lit "diff --git a/" :: rs)).matchesAt
      (start ("diff --git a/".toList ++ t)) = (cat rs).matchesAt ⟨("diff --git a/".toList).reverse, t, []⟩ := by
    intro rs t
    rw [matchesAt_cat_cons]
    change ([start ("diff --git a/".toList ++ t)]).flatMap _ = _
    rw [List.flatMap_singleton, matchesAt_cat_cons, matchesAt_lit, start, readText_append, List.flatMap_singleton,
      List.append_nil]
  have hrun : ∀ c ∈ o', (c != '\n') = true := fun c hc => hall c (by simp [hc])
  have found := grp_some1Lazy_run (p := (· != '\n')) (k := (cat [lit " b/", .grp 2 (some1 dot), .eos]).matchesAt)
    (hall a (by simp)) hrun (" b/".toList ++ n) 1 ("diff --git a/".toList).reverse []
    (fun xs y ys g' hsplit => by
      rw [matchesAt_cat_cons, matchesAt_lit, readText_early h (by rw [hsplit])]
      rfl)
    (tail _ _)
  have whole : matchStart diffGitRe ("diff --git a/".toList ++ (a :: o' ++ (" b/".toList ++ n))) =
      some ⟨n.reverse ++ ((" b/".toList).reverse ++ ((a :: o').reverse ++ ("diff --git a/".toList).reverse)), [],
        [(2, n), (1, a :: o')]⟩ := by
    unfold matchStart diffGitRe
    rw [opened, matchesAt_cat_cons]
    exact found
  unfold diffGitPaths
  rw [whole]
  rfl

/-- A label gives its name back when the name needs no quotes and does not end in a blank. -/
theorem stripPrefix_label {name side : Str} (hs : IsSide side) (hp : Plain name)
    (hlast : name.getLast? ≠ some ' ') : stripPrefix (FileChange.withTab (quoteName side name)) side = name := by
  have body : ∀ x : Char, isSpace x = false → x ≠ '\t' → x ≠ '"' →
      stripPrefix (FileChange.withTab (x :: '/' :: name)) [x, '/'] = name := by
    intro x hx hxt hxq
    have htab : '\t' ∉ x :: '/' :: name := by
      have := tab_not_mem_of_plain hp
      simp [this, Ne.symm hxt]
    have hlabel : beforeFirst '\t' (FileChange.withTab (x :: '/' :: name)) = x :: '/' :: name := by
      unfold FileChange.withTab
      split
      · have shape : ∀ s : Str, '\t' ∉ s → beforeFirst '\t' (s ++ ['\t']) = s := by
          intro s hs
          have hall : ∀ c ∈ s, (c != '\t') = true := by
            intro c hc
            simp only [bne_iff_ne, ne_eq]
            rintro rfl
            exact hs hc
          unfold beforeFirst
          rw [List.takeWhile_append_of_pos hall]
          simp
        exact shape _ htab
      · exact beforeFirst_of_not_mem htab
    have hstrip : strip (x :: '/' :: name) = x :: '/' :: name := by
      have hr : rstrip (x :: '/' :: name) = x :: '/' :: rstrip name :=
        rstrip_append (s := [x]) (by decide : isSpace '/' = false) name
      rw [strip, lstrip_cons hx, hr, (rstrip_eq_self_iff hp).mpr hlast]
    have hquote : startsWith (x :: '/' :: name) ['"'] = false := by
      simp [startsWith_cons, Ne.symm hxq]
    unfold stripPrefix
    rw [hlabel, hstrip]
    dsimp only
    rw [hquote]
    simp [removeSide, startsWith_cons]
  rw [quoteName_plain hp]
  rcases hs with rfl | rfl
  · exact body 'a' (by decide) (by decide) (by decide)
  · exact body 'b' (by decide) (by decide) (by decide)

theorem relative_ne_devNull (p : GitPath) : p.name ≠ "/dev/null".toList := by
  intro heq
  exact p.relative (by rw [heq]; rfl)

theorem mem_labelPaths_old {p : GitPath} (hp : Plain p.name) (hlast : p.name.getLast? ≠ some ' ') (new : Str) :
    p.name ∈ labelPaths ("--- ".toList ++ FileChange.withTab (quoteName "a/".toList p.name)) new := by
  have text : ("--- ".toList ++ FileChange.withTab (quoteName "a/".toList p.name)).drop 4 =
    FileChange.withTab (quoteName "a/".toList p.name) := rfl
  refine List.mem_filter.mpr ⟨?_, by simpa using ⟨p.nonempty, relative_ne_devNull p⟩⟩
  rw [text, stripPrefix_label (Or.inl rfl) hp hlast]
  simp

theorem mem_labelPaths_new {p : GitPath} (hp : Plain p.name) (hlast : p.name.getLast? ≠ some ' ') (old : Str) :
    p.name ∈ labelPaths old ("+++ ".toList ++ FileChange.withTab (quoteName "b/".toList p.name)) := by
  have text : ("+++ ".toList ++ FileChange.withTab (quoteName "b/".toList p.name)).drop 4 =
    FileChange.withTab (quoteName "b/".toList p.name) := rfl
  refine List.mem_filter.mpr ⟨?_, by simpa using ⟨p.nonempty, relative_ne_devNull p⟩⟩
  rw [text, stripPrefix_label (Or.inr rfl) hp hlast]
  simp

end Patches

theorem splitChar_unlines {ls : List Str} (h : ∀ l ∈ ls, '\n' ∉ l) : splitChar '\n' (unlines ls) = ls ++ [[]] := by
  induction ls with
  | nil => rfl
  | cons l ls ih =>
    have shape : unlines (l :: ls) = l ++ '\n' :: unlines ls := by simp [unlines]
    have tail := ih fun x hx => h x (by simp [hx])
    unfold splitChar at tail ⊢
    rw [shape, List.splitOn_append_cons_self_of_not_mem (h l (by simp)), tail]
    rfl

theorem Unbroken.oneLine {s : Str} (h : Unbroken s) : '\n' ∉ s := by
  intro hm
  exact absurd (h '\n' hm) (by decide)

theorem Hunk.header_oneLine (h : Hunk) : '\n' ∉ h.header := by
  have bare : Unbroken ("@@ -".toList ++ hunkRange h.oldStart h.oldCount ++ " +".toList ++
      hunkRange h.newStart h.newCount ++ " @@".toList) := by
    have hopen := Unbroken.append (s := "@@ -".toList) (by decide) (hunkRange_unbroken h.oldStart h.oldCount)
    have hplus := hopen.append (t := " +".toList) (by decide)
    have hnew := hplus.append (hunkRange_unbroken h.newStart h.newCount)
    exact hnew.append (by decide)
  have tail : '\n' ∉ (h.heading.elim [] fun t => ' ' :: t) := by
    cases ht : h.heading with
    | none => simp
    | some t => simpa using h.headingOneLine t (by simp [ht])
  unfold Hunk.header
  intro hm
  rcases List.mem_append.mp hm with hm | hm
  · exact bare.oneLine hm
  · exact tail hm

namespace FileChange

theorem bodyLines_oneLine (c : FileChange) : ∀ l ∈ c.bodyLines, '\n' ∉ l := by
  intro l hl
  unfold bodyLines at hl
  split at hl
  · rw [List.mem_singleton.mp hl]
    have hopen := Unbroken.append (s := "Binary files ".toList) (by decide) c.oldLabel_unbroken
    exact (((hopen.append (t := " and ".toList) (by decide)).append c.newLabel_unbroken).append (by decide)).oneLine
  · simp at hl
  · rcases List.mem_cons.mp hl with rfl | hl
    · exact (Unbroken.append (by decide) (withTab_unbroken c.oldLabel_unbroken)).oneLine
    rcases List.mem_cons.mp hl with rfl | hl
    · exact (Unbroken.append (by decide) (withTab_unbroken c.newLabel_unbroken)).oneLine
    obtain ⟨k, _, hmem⟩ := List.mem_flatMap.mp hl
    rcases List.mem_cons.mp hmem with rfl | hmem
    · exact k.header_oneLine
    obtain ⟨x, _, hlx⟩ := List.mem_flatMap.mp hmem
    rcases List.mem_cons.mp hlx with rfl | hlx
    · have hmark : x.marker.char ≠ '\n' := by cases x.marker <;> decide
      simp [x.oneLine, Ne.symm hmark]
    · split at hlx
      · rw [List.mem_singleton.mp hlx]
        decide
      · simp at hlx

theorem render_oneLine (c : FileChange) : ∀ l ∈ c.render, '\n' ∉ l := by
  intro l hl
  rcases List.mem_cons.mp hl with rfl | hl
  · exact c.diffGitLine_unbroken.oneLine
  simp only [List.mem_append] at hl
  rcases hl with ((hl | hl) | hl) | hl
  · exact (c.modeLines_unbroken l hl).oneLine
  · exact (c.moveLines_unbroken l hl).oneLine
  · exact (c.indexLines_unbroken l hl).oneLine
  · exact c.bodyLines_oneLine l hl

end FileChange

/-- The patch reader's lines are git's lines, whatever the hunks hold. -/
theorem splitChar_render (d : GitDiff) : splitChar '\n' d.render = d.flatMap FileChange.render ++ [[]] := by
  refine splitChar_unlines fun l hl => ?_
  obtain ⟨c, _, hlc⟩ := List.mem_flatMap.mp hl
  exact c.render_oneLine l hlc

end FailureOrchestrator
