import FailureOrchestrator.SectionRun

namespace FailureOrchestrator

namespace FileChange

/-- The path that the `diff --git` line alone gives: its last blank-separated word. -/
def firstPath (c : FileChange) : Str :=
  stripPrefix ((splitChar ' ' (quoteName "b/".toList c.kind.new.name)).getLastD [])

/-- The path after the rename headers. -/
def movedPath (c : FileChange) : Str :=
  match c.kind with
  | .rename _ n => strip (quoteName [] n.name)
  | _ => c.firstPath

/-- The label that names the file in a section with hunks. -/
def namingLabel (c : FileChange) : Str :=
  match c.kind with
  | .delete _ => c.oldLabel
  | _ => c.newLabel

def labelPath (label : Str) : Str := stripPrefix (withTab label)

/-- The path that the reader reports for a section. -/
def readPath (c : FileChange) : Str :=
  match c.hunks with
  | [] => c.movedPath
  | _ :: _ => if (labelPath c.namingLabel).isEmpty then c.movedPath else labelPath c.namingLabel

def readSource (c : FileChange) : Str := c.renameSource.elim [] fun o => strip (quoteName [] o.name)

/-- What the reader reports for a section: the lines as they are, the paths as it reads them. -/
def readDiff (c : FileChange) : FileDiff :=
  { c.fileDiff with path := c.readPath, renamedFrom := c.readSource }

end FileChange

theorem ignored_of_head {a : Char} (t : Str) (h : a ≠ 'd' ∧ a ≠ 'r' ∧ a ≠ '-' ∧ a ≠ '+' ∧ a ≠ '@') :
    Ignored (a :: t) := by
  obtain ⟨hd, hr, hm, hp, ha⟩ := h
  have off : ∀ (b : Char) (p : Str), a ≠ b → startsWith (a :: t) (b :: p) = false := by
    intro b p hb
    simp [startsWith_cons, Ne.symm hb]
  simp only [Ignored, startsWithAny, List.any_cons, List.any_nil, Bool.or_false, Bool.or_eq_false_iff]
  exact ⟨off 'd' _ hd, off 'd' _ hd, off 'r' _ hr, off 'r' _ hr, off '-' _ hm, off '+' _ hp, off '@' _ ha⟩

theorem addLines_eq (d : FileDiff) (ls : List HunkLine) : d.addLines ls = { d with
    added := d.added ++ (ls.filter fun l => decide (l.marker = .added)).map HunkLine.text
    removed := d.removed ++ (ls.filter fun l => decide (l.marker = .removed)).map HunkLine.text
    lines := d.lines ++ ls.map fun l => (l.marker.char, l.text) } := by
  induction ls generalizing d with
  | nil => simp [FileDiff.addLines]
  | cons l ls ih =>
    have step : d.addLines (l :: ls) = (d.addLine l.marker.char l.text).addLines ls := rfl
    rw [step, ih]
    cases hm : l.marker <;> simp [FileDiff.addLine, LineMarker.char, hm]

theorem FileChange.similarityLine_ignored (c : FileChange) : Ignored c.similarityLine :=
  ignored_of_head _ (by decide)

theorem FileChange.diffGitLine_eq (c : FileChange) : c.diffGitLine = "diff --git ".toList ++
    (quoteName "a/".toList c.kind.old.name ++ ([' '] ++ quoteName "b/".toList c.kind.new.name)) := by
  unfold FileChange.diffGitLine
  simp only [List.append_assoc]

theorem FileChange.diffGitLine_parts (c : FileChange) : 4 ≤ (splitChar ' ' c.diffGitLine).length ∧
    (splitChar ' ' c.diffGitLine).getLastD [] =
      (splitChar ' ' (quoteName "b/".toList c.kind.new.name)).getLastD [] := by
  have shape : c.diffGitLine = "diff".toList ++ ' ' :: ("--git".toList ++
      ' ' :: (quoteName "a/".toList c.kind.old.name ++ ' ' :: quoteName "b/".toList c.kind.new.name)) :=
    c.diffGitLine_eq
  have parts : splitChar ' ' c.diffGitLine = ["diff".toList, "--git".toList] ++
      (splitChar ' ' (quoteName "a/".toList c.kind.old.name) ++
        splitChar ' ' (quoteName "b/".toList c.kind.new.name)) := by
    rw [shape]
    simp only [splitChar, List.splitOn_append_cons_self]
    rw [show ("diff".toList).splitOn ' ' = ["diff".toList] from by decide,
      show ("--git".toList).splitOn ' ' = ["--git".toList] from by decide]
    rfl
  have ha := List.length_pos_iff.mpr (List.splitOn_ne_nil ' ' (quoteName "a/".toList c.kind.old.name))
  have hb := List.splitOn_ne_nil ' ' (quoteName "b/".toList c.kind.new.name)
  have hb' := List.length_pos_iff.mpr hb
  rw [parts]
  constructor
  · simp only [splitChar, List.length_append, List.length_cons, List.length_nil]
    omega
  · simp only [splitChar]
    rw [← List.append_assoc, List.getLastD_eq_getLast?, List.getLastD_eq_getLast?,
      List.getLast?_append_of_ne_nil _ hb]

section

variable [UnicodeData]

theorem headerStep_renameFrom {st : DiffState} {d : FileDiff} (hcur : st.current = some d) (x : Str) :
    headerStep st ("rename from ".toList ++ x) =
      .ok { st with current := some { d with renamedFrom := strip x } } := by
  have h1 : startsWith ("rename from ".toList ++ x) "diff --git ".toList = false := rfl
  have h2 : startsWith ("rename from ".toList ++ x) "deleted file mode".toList = false := rfl
  have h3 : List.drop 12 ("rename from ".toList ++ x) = x := rfl
  simp only [headerStep, h1, h2, h3, startsWith_append, hcur, Option.isSome_some, Bool.false_and,
    Bool.false_eq_true, ↓reduceIte, Bool.and_self, Option.map_some]

theorem headerStep_renameTo {st : DiffState} {d : FileDiff} (hcur : st.current = some d) (x : Str) :
    headerStep st ("rename to ".toList ++ x) =
      .ok { st with current := some { d with path := strip x } } := by
  have h1 : startsWith ("rename to ".toList ++ x) "diff --git ".toList = false := rfl
  have h2 : startsWith ("rename to ".toList ++ x) "deleted file mode".toList = false := rfl
  have h3 : startsWith ("rename to ".toList ++ x) "rename from ".toList = false := rfl
  have h4 : List.drop 10 ("rename to ".toList ++ x) = x := rfl
  simp only [headerStep, h1, h2, h3, h4, startsWith_append, hcur, Option.isSome_some, Bool.false_and,
    Bool.false_eq_true, ↓reduceIte, Bool.and_self, Option.map_some]

theorem headerStep_deleted {st : DiffState} {d : FileDiff} (hcur : st.current = some d) (m : FileMode) :
    headerStep st ("deleted file mode ".toList ++ m.text) =
      .ok { st with current := some { d with deleted := true } } := by
  have h1 : startsWith ("deleted file mode ".toList ++ m.text) "diff --git ".toList = false := rfl
  have h2 : startsWith ("deleted file mode ".toList ++ m.text) "deleted file mode".toList = true := by
    cases m <;> decide
  simp only [headerStep, h1, h2, hcur, Option.isSome_some, Bool.false_eq_true, ↓reduceIte,
    Bool.and_self, Option.map_some]

theorem headerStep_oldLabel (st : DiffState) (x : Str) :
    headerStep st ("--- ".toList ++ x) = .ok { st with pendingOld := some (stripPrefix x) } := by
  have h1 : startsWith ("--- ".toList ++ x) "diff --git ".toList = false := rfl
  have h2 : startsWith ("--- ".toList ++ x) "deleted file mode".toList = false := rfl
  have h3 : startsWith ("--- ".toList ++ x) "rename from ".toList = false := rfl
  have h4 : startsWith ("--- ".toList ++ x) "rename to ".toList = false := rfl
  have h5 : List.drop 4 ("--- ".toList ++ x) = x := rfl
  simp only [headerStep, h1, h2, h3, h4, h5, startsWith_append, Bool.false_and, Bool.false_eq_true,
    ↓reduceIte]

theorem headerStep_newLabel (st : DiffState) (x : Str) :
    headerStep st ("+++ ".toList ++ x) = .ok (newFileStep st ("+++ ".toList ++ x)) := by
  have h1 : startsWith ("+++ ".toList ++ x) "diff --git ".toList = false := rfl
  have h2 : startsWith ("+++ ".toList ++ x) "deleted file mode".toList = false := rfl
  have h3 : startsWith ("+++ ".toList ++ x) "rename from ".toList = false := rfl
  have h4 : startsWith ("+++ ".toList ++ x) "rename to ".toList = false := rfl
  have h5 : startsWith ("+++ ".toList ++ x) "--- ".toList = false := rfl
  simp only [headerStep, h1, h2, h3, h4, h5, startsWith_append, Bool.false_and, Bool.false_eq_true,
    ↓reduceIte]

namespace FileChange

/-- The state right after the `diff --git` line of a section. -/
def opened (st : DiffState) (c : FileChange) : DiffState :=
  { st.endHunk.openFile { path := c.firstPath } with pendingOld := none, gitHeader := true }

theorem diffStep_diffGitLine {st : DiffState} (hidle : st.Idle) (c : FileChange) :
    diffStep st c.diffGitLine = .ok (opened st c) := by
  obtain ⟨hlen, hlast⟩ := c.diffGitLine_parts
  have hs : startsWith c.diffGitLine "diff --git ".toList = true := by
    rw [c.diffGitLine_eq]
    exact startsWith_append _ _
  rw [diffStep_idle hidle, headerStep, if_pos hs]
  dsimp only
  rw [if_pos hlen, hlast]
  rfl

theorem readLines_modeLines {st : DiffState} {d : FileDiff} (hin : st.inHunk = false)
    (hcur : st.current = some d) (c : FileChange) :
    readLines st c.modeLines = .ok { st with current := some { d with deleted := d.deleted || c.isDelete } } := by
  have same : { st with current := some { d with deleted := d.deleted || false } } = st := by
    cases st; simp_all
  unfold modeLines isDelete
  cases c.kind with
  | delete p =>
    rw [readLines_cons (by rw [diffStep_closed hin, headerStep_deleted hcur])]
    simp
  | add p =>
    rw [same, readLines_ignored hin]
    intro l hl
    rw [List.mem_singleton.mp hl]
    exact ignored_of_head _ (by decide)
  | modify | rename | copy =>
    rw [same, readLines_ignored hin]
    intro l hl
    dsimp only at hl
    split at hl
    · simp at hl
    · rcases List.mem_pair.mp hl with rfl | rfl <;> exact ignored_of_head _ (by decide)

theorem readLines_moveLines {st : DiffState} {d : FileDiff} (hin : st.inHunk = false)
    (hcur : st.current = some d) (hd : d.renamedFrom = []) {c : FileChange} (hp : d.path = c.firstPath) :
    readLines st c.moveLines =
      .ok { st with current := some { d with renamedFrom := c.readSource, path := c.movedPath } } := by
  have same : { st with current := some { d with renamedFrom := [], path := c.firstPath } } = st := by
    cases st; cases d; simp_all
  have skip : diffStep st c.similarityLine = .ok st := by
    rw [diffStep_closed hin, headerStep_ignored c.similarityLine_ignored]
  unfold moveLines readSource renameSource movedPath
  cases hk : c.kind with
  | rename o n =>
    let mid : DiffState := { st with current := some { d with renamedFrom := strip (quoteName [] o.name) } }
    have h2 : diffStep st ("rename from ".toList ++ quoteName [] o.name) = .ok mid := by
      rw [diffStep_closed hin, headerStep_renameFrom hcur]
    have h3 : diffStep mid ("rename to ".toList ++ quoteName [] n.name) = .ok { mid with
        current := some { d with renamedFrom := strip (quoteName [] o.name), path := strip (quoteName [] n.name) } } := by
      have hcur' : mid.current = some { d with renamedFrom := strip (quoteName [] o.name) } := rfl
      have hin' : mid.inHunk = false := hin
      rw [diffStep_closed hin', headerStep_renameTo hcur']
    rw [readLines_cons skip, readLines_cons h2, readLines_cons h3]
    rfl
  | copy o n =>
    simp only [Option.elim_none, same]
    refine readLines_ignored hin fun l hl => ?_
    simp only [List.mem_cons, List.not_mem_nil, or_false] at hl
    rcases hl with rfl | rfl | rfl
    · exact c.similarityLine_ignored
    · exact ignored_of_head _ (by decide)
    · exact ignored_of_head _ (by decide)
  | modify | add | delete =>
    simp only [Option.elim_none, same, readLines_nil]

theorem readLines_indexLines {st : DiffState} (hin : st.inHunk = false) (c : FileChange) :
    readLines st c.indexLines = .ok st := by
  refine readLines_ignored hin fun l hl => ?_
  unfold indexLines at hl
  split at hl
  · simp at hl
  · rw [List.mem_singleton.mp hl]
    exact ignored_of_head _ (by decide)

end FileChange

end

end FailureOrchestrator
