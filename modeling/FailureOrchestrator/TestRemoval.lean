import FailureOrchestrator.DiffFaithful
import FailureOrchestrator.PolicyApproval

namespace FailureOrchestrator

theorem afterLast_of_not_mem {c : Char} {s : Str} (h : c ∉ s) : afterLast c s = s := by
  refine List.rtakeWhile_eq_self_iff.mpr fun y hy => ?_
  simp only [bne_iff_ne, ne_eq]
  rintro rfl
  exact h hy

theorem afterLast_append {c : Char} {ys : Str} (h : c ∉ ys) (xs : Str) : afterLast c (xs ++ c :: ys) = ys := by
  have hall : ys.reverse.takeWhile (· != c) = ys.reverse := by
    refine List.takeWhile_eq_self_iff.mpr fun y hy => ?_
    simp only [bne_iff_ne, ne_eq]
    rintro rfl
    exact h (List.mem_reverse.mp hy)
  unfold afterLast List.rtakeWhile
  rw [List.reverse_append, List.reverse_cons, List.append_assoc, List.takeWhile_append, hall]
  simp

/-- The last part of `s.split(c)` is `s.rsplit(c, 1)[-1]`. -/
theorem splitChar_getLastD (c : Char) (s : Str) : (splitChar c s).getLastD [] = afterLast c s := by
  unfold splitChar
  by_cases hc : c ∈ s
  · obtain ⟨bs, as, hrev, hbs⟩ := List.eq_append_cons_of_mem (List.mem_reverse.mpr hc)
    have hs : s = as.reverse ++ c :: bs.reverse := by
      rw [← List.reverse_reverse s, hrev]
      simp
    have hlast : c ∉ bs.reverse := fun hm => hbs (List.mem_reverse.mp hm)
    rw [hs, List.splitOn_append_cons_self, List.splitOn_eq_singleton hlast, afterLast_append hlast]
    simp
  · rw [List.splitOn_eq_singleton hc, afterLast_of_not_mem hc]
    rfl

section

variable [UnicodeData]

theorem isTestPath_of_discoverable {path : Str} (h : isDiscoverableTest path = true) : isTestPath path = true := by
  unfold isDiscoverableTest at h
  unfold isTestPath
  rw [Bool.and_eq_true] at h
  dsimp only
  rw [splitChar_getLastD]
  unfold basename at h
  rw [h.2]
  rfl

/-- The change takes a collected test away: it deletes it, or renames it to a name that no
runner collects. -/
def FileChange.RemovesTest (c : FileChange) : Prop :=
  match c.kind with
  | .delete p => isDiscoverableTest p.name = true
  | .rename o n => isDiscoverableTest o.name = true ∧ isDiscoverableTest n.name = false
  | _ => False

/-- The analysis flags the diff for rejection, and no engine approves a proposal that carries it. -/
def GitDiff.Rejected (d : GitDiff) : Prop :=
  (∃ findings, analyzePatch d.render = .ok findings ∧ ∃ f ∈ findings, f.severity = .reject) ∧
  ∀ (engine : StaticPolicyEngine) (context : PolicyContext), context.proposal.patch = d.render →
    (engine.evaluate context).outcome ≠ .approve

theorem rejected_of_finding {d : GitDiff} {findings : List IntegrityFinding}
    (h : analyzePatch d.render = .ok findings) {f : IntegrityFinding} (hf : f ∈ findings)
    (hs : f.severity = .reject) : d.Rejected := by
  refine ⟨⟨findings, h, f, hf, hs⟩, fun engine context hpatch happ => ?_⟩
  have hard : HardReject engine.config context := by
    refine Or.inr (Or.inr (Or.inr (Or.inr ⟨findings, ?_, f, hf, hs⟩)))
    rw [hpatch, h]
  rw [engine.evaluate_of_hardReject hard] at happ
  cases happ

theorem analyzeFile_prose {diff : FileDiff} (h : isProse diff.path = true) : analyzeFile diff = [] := by
  unfold analyzeFile
  rw [if_pos h]

theorem analyzeFile_deletedTest {diff : FileDiff} (hprose : isProse diff.path = false) (hdel : diff.deleted = true)
    (htest : isDiscoverableTest diff.path = true) : ∃ f ∈ analyzeFile diff, f.severity = .reject := by
  have hflag : (diff.deleted && isTestPath diff.path) = true := by
    rw [hdel, isTestPath_of_discoverable htest]
    rfl
  unfold analyzeFile
  rw [if_neg (by simp [hprose]), if_pos hflag]
  exact ⟨⟨.testFileDeleted, diff.path, evidenceOf []⟩, List.mem_append_right _ (by simp [flag]), rfl⟩

theorem analyzeFile_renamedTest {diff : FileDiff} (hprose : isProse diff.path = false)
    (hdel : diff.deleted = false) (hmoved : renamedOutOfDiscovery diff = true) :
    ∃ f ∈ analyzeFile diff, f.severity = .reject := by
  unfold analyzeFile
  rw [if_neg (by simp [hprose]), if_neg (by simp [hdel]), if_neg (by simp [hdel])]
  refine ⟨⟨.testFileRenamedOutOfDiscovery, diff.path,
    evidenceOf (diff.renamedFrom ++ " -> ".toList ++ diff.path)⟩, ?_, rfl⟩
  refine List.mem_append_left _ (List.mem_append_right _ ?_)
  unfold renameFindings
  rw [if_pos hmoved]
  simp [flag]

/-- A removed test is flagged wherever its new path is not taken for prose. -/
theorem analyzeFile_removesTest {c : FileChange} (hr : c.RemovesTest) (hprose : isProse c.kind.new.name = false) :
    ∃ f ∈ analyzeFile c.fileDiff, f.severity = .reject := by
  unfold FileChange.RemovesTest at hr
  cases hk : c.kind with
  | delete p =>
    rw [hk] at hr hprose
    have hpath : c.fileDiff.path = p.name := by simp [FileChange.fileDiff, hk, ChangeKind.new]
    have hdel : c.fileDiff.deleted = true := by simp [FileChange.fileDiff, FileChange.isDelete, hk]
    exact analyzeFile_deletedTest (hpath ▸ hprose) hdel (hpath ▸ hr)
  | rename o n =>
    rw [hk] at hr hprose
    have hpath : c.fileDiff.path = n.name := by simp [FileChange.fileDiff, hk, ChangeKind.new]
    have hdel : c.fileDiff.deleted = false := by simp [FileChange.fileDiff, FileChange.isDelete, hk]
    have hsource : c.fileDiff.renamedFrom = o.name := by
      simp [FileChange.fileDiff, FileChange.renameSource, hk]
    refine analyzeFile_renamedTest (hpath ▸ hprose) hdel ?_
    unfold renamedOutOfDiscovery
    rw [hpath, hsource, hr.1, hr.2]
    simp [o.nonempty]
  | modify p | add p => rw [hk] at hr; exact hr.elim
  | copy o n => rw [hk] at hr; exact hr.elim

theorem analyzePatch_render {d : GitDiff} (hl : ∀ c ∈ d, c.LinesUnbroken) (hc : d.Countable) :
    analyzePatch d.render = .ok ((d.map FileChange.readDiff).flatMap analyzeFile) := by
  unfold analyzePatch
  rw [parseUnifiedDiff_render hl hc]
  rfl

theorem rejected_of_removesTest {d : GitDiff} (hl : ∀ x ∈ d, x.LinesUnbroken) (hcount : d.Countable)
    {c : FileChange} (hmem : c ∈ d) (hc : c.Readable) (hr : c.RemovesTest)
    (hprose : isProse c.kind.new.name = false) : d.Rejected := by
  obtain ⟨f, hf, hs⟩ := analyzeFile_removesTest hr hprose
  have hread : c.readDiff = c.fileDiff := c.readDiff_iff.mpr ⟨hc.path, hc.source⟩
  refine rejected_of_finding (analyzePatch_render hl hcount) ?_ hs
  refine List.mem_flatMap.mpr ⟨c.readDiff, List.mem_map_of_mem hmem, ?_⟩
  rw [hread]
  exact hf

/-- A removed test is rejected in every diff that holds the removal exactly when its new path
is not taken for prose. -/
theorem testRemoval_rejected_iff {c : FileChange} (hc : c.Readable) (hr : c.RemovesTest) :
    (∀ d : GitDiff, (∀ x ∈ d, x.LinesUnbroken) → d.Countable → c ∈ d → d.Rejected) ↔
      isProse c.kind.new.name = false := by
  constructor
  · intro hall
    by_contra hprose
    have hlines : ∀ x ∈ [c], x.LinesUnbroken := by
      intro x hx
      rw [List.mem_singleton.mp hx]
      exact hc.lines
    have hcount : GitDiff.Countable [c] := by
      intro x hx
      rw [List.mem_singleton.mp hx]
      exact hc.counts
    have hread : c.readDiff = c.fileDiff := c.readDiff_iff.mpr ⟨hc.path, hc.source⟩
    have hpath : isProse c.fileDiff.path = true := Bool.not_eq_false _ ▸ hprose
    obtain ⟨⟨findings, hfind, f, hf, _⟩, _⟩ := hall [c] hlines hcount (by simp)
    rw [analyzePatch_render hlines hcount] at hfind
    have hnone : ([c].map FileChange.readDiff).flatMap analyzeFile = [] := by
      simp [hread, analyzeFile_prose hpath]
    rw [hnone] at hfind
    cases hfind
    simp at hf
  · intro hprose d hl hcount hmem
    exact rejected_of_removesTest hl hcount hmem hc hr hprose

end

/-- An empty file under `tests/` that is deleted. -/
def emptyTestDeletion : FileChange where
  kind := .delete sampleTest
  oldMode := .regular
  newMode := .regular
  index := none
  similarity := 0
  body := .hunks []

theorem emptyTestDeletion_readable : emptyTestDeletion.Readable where
  lines := by simp [FileChange.LinesUnbroken, FileChange.hunks, emptyTestDeletion]
  counts := by simp [FileChange.hunks, emptyTestDeletion]
  path := by
    refine ⟨by decide, ?_⟩
    show ' ' ∉ "tests/test_a.py".toList
    decide
  source := by simp [FileChange.SourceReadable, FileChange.renameSource, emptyTestDeletion]

theorem testRemoval_rejected_deletion :
    @GitDiff.Rejected asciiData [emptyTestDeletion] := by
  have hremoves : @FileChange.RemovesTest asciiData emptyTestDeletion := by rfl
  have hprose : @isProse asciiData "tests/test_a.py".toList = false := by rfl
  refine (@testRemoval_rejected_iff asciiData _ emptyTestDeletion_readable hremoves).mpr hprose
    [emptyTestDeletion] ?_ ?_ (by simp)
  · intro x hx
    rw [List.mem_singleton.mp hx]
    exact emptyTestDeletion_readable.lines
  · intro x hx
    rw [List.mem_singleton.mp hx]
    exact emptyTestDeletion_readable.counts

/-- A collected test renamed to a text file of the same directory. -/
def testRenamedToText : FileChange where
  kind := .rename sampleTest ⟨"tests/test_a.txt".toList, by decide, by decide⟩
  oldMode := .regular
  newMode := .regular
  index := none
  similarity := 100
  body := .hunks []

theorem testRenamedToText_unflagged :
    @analyzePatch asciiData (GitDiff.render [testRenamedToText]) = .ok [] := by
  rfl

/-- The rename hides the test from every runner, and the analysis reports nothing. -/
theorem testRemoval_not_always_rejected : ¬ ∀ (u : UnicodeData) (d : GitDiff),
    (∃ c ∈ d, @FileChange.RemovesTest u c) → @GitDiff.Rejected u d := by
  intro h
  have hremoves : @FileChange.RemovesTest asciiData testRenamedToText := by
    constructor <;> rfl
  obtain ⟨⟨findings, hfind, f, hf, _⟩, _⟩ := h asciiData [testRenamedToText] ⟨_, by simp, hremoves⟩
  rw [testRenamedToText_unflagged] at hfind
  cases hfind
  simp at hf

end FailureOrchestrator
